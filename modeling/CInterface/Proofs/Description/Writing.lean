import CInterface.Proofs.Description.Format

/-!
# Writing descriptions

What it is for a value to describe a module: every part of the module is told by a member, and a member may be left out,
or null, where the module has what is assumed without it. Each module has a description, and whatever describes a module
is read as this module, wherever it comes from.
-/

namespace CInterface.Description

open Source
open Json (Members)

/-! ## Describing -/

section

variable {α : Type}

/-- A value is written under a key, or it is the one that is assumed when nothing is there. -/
inductive Tells (members : Members) (key : String) (writes : Json.Value → α → Prop) (assumed : α) : α → Prop where
  | written {v : Json.Value} {a : α} (found : members.find? key = some v) (h : writes v a) :
      Tells members key writes assumed a
  | leftOut (absent : members.find? key = none ∨ members.find? key = some .null) :
      Tells members key writes assumed assumed

def IsFlag (v : Json.Value) (b : Bool) : Prop := v = .bool b

def IsGiven (write : α → Json.Value) (v : Json.Value) (o : Option α) : Prop := o.map write = some v

def IsList (describes : Members → α → Prop) (v : Json.Value) (as : List α) : Prop :=
  ∃ all : List Members, v = .array (all.map .object) ∧ List.Forall₂ describes all as

end

mutual

inductive DescribesType : Json.Value → TypeExpr → Prop where
  | primitive {members : Members} {p : Primitive} {name : String}
      (kind : members.find? "kind" = some (.string "primitive")) (named : members.find? "name" = some (.string name))
      (spelled : name = p.native ∨ name = p.cName) : DescribesType (.object members) (.primitive p)
  | pointer {members : Members} {pointee : Json.Value} {isMutable : Bool} {t : TypeExpr}
      (kind : members.find? "kind" = some (.string "pointer")) (target : members.find? "pointee" = some pointee)
      (inner : DescribesType pointee t) (marked : Tells members "mutable" IsFlag true isMutable) :
      DescribesType (.object members) (.pointer isMutable t)
  | named {members : Members} {name : String} (kind : members.find? "kind" = some (.string "named"))
      (named : members.find? "name" = some (.string name))
      (bare : members.find? "args" = none ∨ members.find? "args" = some .null) :
      DescribesType (.object members) (.named name [])
  | applied {members : Members} {name : String} {vs : List Json.Value} {args : List TypeExpr}
      (kind : members.find? "kind" = some (.string "named")) (named : members.find? "name" = some (.string name))
      (given : members.find? "args" = some (.array vs)) (each : DescribesTypes vs args) :
      DescribesType (.object members) (.named name args)

inductive DescribesTypes : List Json.Value → List TypeExpr → Prop where
  | nil : DescribesTypes [] []
  | cons {v : Json.Value} {t : TypeExpr} {vs : List Json.Value} {ts : List TypeExpr} (first : DescribesType v t)
      (rest : DescribesTypes vs ts) : DescribesTypes (v :: vs) (t :: ts)

end

structure DescribesLocation (members : Members) (l : Location) : Prop where
  file : members.find? "file" = some (.string l.file)
  line : members.find? "line" = some (.int l.line)
  column : Tells members "column" (IsGiven .int) none l.column

def IsLocation (v : Json.Value) (o : Option Location) : Prop :=
  ∃ place l, v = .object place ∧ o = some l ∧ DescribesLocation place l

structure DescribesVariant (members : Members) (v : Variant) : Prop where
  name : members.find? "name" = some (.string v.name)
  value : Tells members "value" (IsGiven .int) none v.value

/-- A field or a parameter. -/
structure DescribesMember (members : Members) (m : Member) : Prop where
  name : members.find? "name" = some (.string m.name)
  type : Has members "type" (DescribesType · m.type)

structure DescribesAlias (members : Members) (a : Alias) : Prop where
  kind : members.find? "kind" = some (.string "typedef")
  target : Has members "target" (DescribesType · a.target)
  params : Tells members "type_params" (fun v params => v = .array (params.map .string)) [] a.typeParams

structure DescribesEnumeration (members : Members) (e : Enumeration) : Prop where
  kind : members.find? "kind" = some (.string "enum")
  variants : Tells members "variants" (IsList DescribesVariant) [] e.variants
  reprC : Tells members "repr_c" IsFlag false e.reprC
  reprHint : Tells members "repr_hint" (IsGiven .string) none e.reprHint

structure DescribesStruct (members : Members) (s : Struct) : Prop where
  kind : members.find? "kind" = some (.string "struct")
  fields : Tells members "fields" (IsList DescribesMember) [] s.fields
  reprC : Tells members "repr_c" IsFlag false s.reprC

structure DescribesFunction (members : Members) (f : Function) : Prop where
  kind : members.find? "kind" = some (.string "function")
  parameters : Tells members "parameters" (IsList DescribesMember) [] f.parameters
  returnType : Tells members "return_type" DescribesType (.primitive .void) f.returnType
  hasCLinkage : Tells members "extern" IsFlag false f.hasCLinkage
  isUnmangled : Tells members "no_mangle" IsFlag false f.isUnmangled
  exportName : Tells members "export_name" (IsGiven .string) none f.exportName

def DescribesBody (members : Members) : Declaration → Prop
  | .alias a => DescribesAlias members a
  | .enumeration e => DescribesEnumeration members e
  | .struct s => DescribesStruct members s
  | .function f => DescribesFunction members f

structure DescribesDeclaration (members : Members) (d : Declaration) : Prop where
  name : members.find? "name" = some (.string d.name)
  isPublic : Tells members "public" IsFlag false d.isPublic
  location : Tells members "location" IsLocation none d.location
  body : DescribesBody members d

/-- The name of a module is always written, since it is not assumed to be that of a file. -/
structure DescribesModule (members : Members) (m : Module) : Prop where
  path : members.find? "module" = some (.string m.path)
  declarations : Tells members "declarations" (IsList DescribesDeclaration) [] m.declarations

def Describes (v : Json.Value) (m : Module) : Prop := ∃ members, v = .object members ∧ DescribesModule members m

/-! ## A description of each module -/

mutual

def describeType : TypeExpr → Json.Value
  | .primitive p => .object [("kind", .string "primitive"), ("name", .string p.native)]
  | .pointer isMutable pointee =>
    .object [("kind", .string "pointer"), ("pointee", describeType pointee), ("mutable", .bool isMutable)]
  | .named name args =>
    .object [("kind", .string "named"), ("name", .string name), ("args", .array (describeTypes args))]

def describeTypes : List TypeExpr → List Json.Value
  | [] => []
  | t :: ts => describeType t :: describeTypes ts

end

/-- What is not given is null. -/
def orNull {α : Type} (write : α → Json.Value) (o : Option α) : Json.Value := (o.map write).getD .null

def describeLocation (l : Location) : Json.Value :=
  .object [("file", .string l.file), ("line", .int l.line), ("column", orNull .int l.column)]

def describeVariant (v : Variant) : Members := [("name", .string v.name), ("value", orNull .int v.value)]

def describeMember (m : Member) : Members := [("name", .string m.name), ("type", describeType m.type)]

def describeBody : Declaration → Members
  | .alias a =>
    [("kind", .string "typedef"), ("target", describeType a.target),
      ("type_params", .array (a.typeParams.map .string))]
  | .enumeration e =>
    [("kind", .string "enum"), ("variants", .array ((e.variants.map describeVariant).map .object)),
      ("repr_c", .bool e.reprC), ("repr_hint", orNull .string e.reprHint)]
  | .struct s =>
    [("kind", .string "struct"), ("fields", .array ((s.fields.map describeMember).map .object)),
      ("repr_c", .bool s.reprC)]
  | .function f =>
    [("kind", .string "function"), ("parameters", .array ((f.parameters.map describeMember).map .object)),
      ("return_type", describeType f.returnType), ("extern", .bool f.hasCLinkage), ("no_mangle", .bool f.isUnmangled),
      ("export_name", orNull .string f.exportName)]

def describeDeclaration (d : Declaration) : Members :=
  ("name", .string d.name) :: ("public", .bool d.isPublic) :: ("location", orNull describeLocation d.location) ::
    describeBody d

def describe (m : Module) : Json.Value :=
  .object [("module", .string m.path),
    ("declarations", .array ((m.declarations.map describeDeclaration).map .object))]

section

variable {members : Members} {key : String} {α : Type}

theorem tells_orNull {writes : Json.Value → Option α → Prop} {write : α → Json.Value} {o : Option α}
    (found : members.find? key = some (orNull write o)) (h : ∀ a, writes (write a) (some a)) :
    Tells members key writes none o := by
  cases o with
  | none => exact .leftOut (.inr found)
  | some a => exact .written found (h a)

theorem isList_map {describes : Members → α → Prop} {write : α → Members} (h : ∀ a, describes (write a) a)
    (as : List α) : IsList describes (.array ((as.map write).map .object)) as :=
  ⟨as.map write, rfl, by simpa [List.forall₂_map_left_iff, List.forall₂_same] using fun a _ => h a⟩

mutual

theorem describesType_describeType : (t : TypeExpr) → DescribesType (describeType t) t
  | .primitive p => by
    rw [describeType]
    exact .primitive rfl rfl (.inl rfl)
  | .pointer isMutable pointee => by
    rw [describeType]
    exact .pointer rfl rfl (describesType_describeType pointee) (.written rfl rfl)
  | .named name args => by
    rw [describeType]
    exact .applied rfl rfl rfl (describesTypes_describeTypes args)

theorem describesTypes_describeTypes : (ts : List TypeExpr) → DescribesTypes (describeTypes ts) ts
  | [] => by
    rw [describeTypes]
    exact .nil
  | t :: ts => by
    rw [describeTypes]
    exact .cons (describesType_describeType t) (describesTypes_describeTypes ts)

end

theorem isLocation_describeLocation (l : Location) : IsLocation (describeLocation l) (some l) :=
  ⟨_, l, rfl, rfl, rfl, rfl, tells_orNull rfl fun _ => rfl⟩

theorem describesVariant_describeVariant (v : Variant) : DescribesVariant (describeVariant v) v :=
  ⟨rfl, tells_orNull rfl fun _ => rfl⟩

theorem describesMember_describeMember (m : Member) : DescribesMember (describeMember m) m :=
  ⟨rfl, _, rfl, describesType_describeType m.type⟩

theorem describesBody_describeDeclaration (d : Declaration) : DescribesBody (describeDeclaration d) d := by
  match d with
  | .alias a => exact ⟨rfl, ⟨_, rfl, describesType_describeType a.target⟩, .written rfl rfl⟩
  | .enumeration e =>
    exact ⟨rfl, .written rfl (isList_map describesVariant_describeVariant e.variants), .written rfl rfl,
      tells_orNull rfl fun _ => rfl⟩
  | .struct s =>
    exact ⟨rfl, .written rfl (isList_map describesMember_describeMember s.fields), .written rfl rfl⟩
  | .function f =>
    exact ⟨rfl, .written rfl (isList_map describesMember_describeMember f.parameters),
      .written rfl (describesType_describeType f.returnType), .written rfl rfl, .written rfl rfl,
      tells_orNull rfl fun _ => rfl⟩

theorem describesDeclaration_describeDeclaration (d : Declaration) :
    DescribesDeclaration (describeDeclaration d) d :=
  ⟨rfl, .written rfl rfl, tells_orNull rfl isLocation_describeLocation, describesBody_describeDeclaration d⟩

theorem describes_describe (m : Module) : Describes (describe m) m :=
  ⟨_, rfl, rfl, .written rfl (isList_map describesDeclaration_describeDeclaration m.declarations)⟩

/-! ## Reading what is described -/

theorem optional_flag_of_tells {assumed b : Bool} (h : Tells members key IsFlag assumed b) :
    ∃ o, optional members key .flag = .ok o ∧ o.getD assumed = b := by
  cases h with
  | written found h =>
    cases h
    exact ⟨some b, optional_seen found (by simp) rfl, rfl⟩
  | leftOut absent => exact ⟨none, optional_absent absent, rfl⟩

theorem optionalFlag_of_tells {b : Bool} (h : Tells members key IsFlag false b) : optionalFlag members key = .ok b := by
  obtain ⟨o, read, rfl⟩ := optional_flag_of_tells h
  rw [optionalFlag, read]
  rfl

theorem optional_of_tells {write : α → Json.Value} {o : Option α} (h : Tells members key (IsGiven write) none o)
    (view : View α) (seen : ∀ a, view.get? (write a) = some a) (given : ∀ a, write a ≠ .null) :
    optional members key view = .ok o := by
  cases h with
  | written found h =>
    obtain ⟨a, rfl, rfl⟩ := Option.map_eq_some_iff.1 h
    exact optional_seen found (given a) (seen a)
  | leftOut absent => exact optional_absent absent

theorem objectList_of_tells {describes : Members → α → Prop} {as : List α}
    (h : Tells members key (IsList describes) [] as) :
    ∃ all, objectList members key = .ok all ∧ List.Forall₂ describes all as := by
  cases h with
  | written found h =>
    obtain ⟨all, rfl, each⟩ := h
    exact ⟨all, objectList_ok.2 (.inr found), each⟩
  | leftOut absent => exact ⟨[], objectList_ok.2 (.inl ⟨absent, rfl⟩), .nil⟩

mutual

theorem readType_of_describes {v : Json.Value} {t : TypeExpr} : DescribesType v t → readType v = .ok t
  | .primitive kind named spelled => readType_eq_primitive kind named spelled
  | .pointer kind target inner marked => by
    obtain ⟨o, read, rfl⟩ := optional_flag_of_tells marked
    exact readType_eq_pointer kind target (readType_of_describes inner) read
  | .named kind named bare => readType_eq_named kind named (by rw [readArguments_eq, optional_absent bare]; rfl)
  | .applied kind named given each => by
    refine readType_eq_named kind named ?_
    rw [readArguments_eq, optional_seen given (by simp) rfl]
    exact readTypes_of_describes each

theorem readTypes_of_describes {vs : List Json.Value} {ts : List TypeExpr} :
    DescribesTypes vs ts → readTypes vs = .ok ts
  | .nil => by rw [readTypes]
  | .cons first rest => by
    rw [readTypes, readType_of_describes first, readTypes_of_describes rest]
    rfl

end

theorem readLocation_of_describes {o : Option Location} (h : Tells members "location" IsLocation none o) :
    readLocation members = .ok o := by
  cases h with
  | leftOut absent =>
    rw [readLocation, optional_absent absent]
    rfl
  | written found h =>
    obtain ⟨place, l, rfl, rfl, h⟩ := h
    have file := require_text.2 h.file
    have line : require place "line" .whole = .ok l.line := require_seen h.line rfl
    have column := optional_of_tells h.column .whole (fun _ => rfl) (by simp)
    rw [readLocation, optional_seen found (by simp) rfl, except_ok_bind]
    simp only [file, line, column]
    rfl

theorem readVariant_of_describes {v : Variant} (h : DescribesVariant members v) : readVariant members = .ok v := by
  rw [readVariant, require_text.2 h.name, optional_of_tells h.value .whole (fun _ => rfl) (by simp)]
  rfl

theorem readMember_of_describes {m : Member} (h : DescribesMember members m) (untyped : Cause) :
    readMember untyped members = .ok m := by
  obtain ⟨v, found, described⟩ := h.type
  simp only [readMember, found, require_text.2 h.name, readType_of_describes described]
  rfl

theorem readReturnType_of_describes {t : TypeExpr}
    (h : Tells members "return_type" DescribesType (.primitive .void) t) : readReturnType members = .ok t := by
  cases h with
  | leftOut absent => exact readReturnType_absent absent
  | @written v _ found h =>
    have given : v ≠ .null := by
      rintro rfl
      cases h
    rw [readReturnType_given found given, readType_of_describes h]

/-- A list that is told is read object by object. -/
theorem exists_objectList_mapM {describes : Members → α → Prop} {read : Members → Except Cause α} {as : List α}
    (h : Tells members key (IsList describes) [] as) (each : ∀ {ms a}, describes ms a → read ms = .ok a) :
    ∃ all, objectList members key = .ok all ∧ all.mapM read = .ok as := by
  obtain ⟨all, found, described⟩ := objectList_of_tells h
  exact ⟨all, found, except_mapM_ok.2 (described.imp fun _ _ => each)⟩

theorem typeParams_of_tells {params : List String}
    (h : Tells members "type_params" (fun v params => v = .array (params.map .string)) [] params) :
    ∃ o, optional members "type_params" .list = .ok o ∧ (o.getD []).map Json.Value.display = params := by
  cases h with
  | written found h =>
    cases h
    have displayed : Json.Value.display ∘ Json.Value.string = id := rfl
    exact ⟨_, optional_seen found (by simp) rfl, by rw [Option.getD_some, List.map_map, displayed, List.map_id]⟩
  | leftOut absent => exact ⟨none, optional_absent absent, rfl⟩

theorem readAlias_of_describes {a : Alias} (h : DescribesAlias members a) :
    readAlias members a.name a.isPublic a.location = .ok a := by
  obtain ⟨v, found, described⟩ := h.target
  obtain ⟨o, params, displayed⟩ := typeParams_of_tells h.params
  simp only [readAlias, found, params, readType_of_describes described, displayed, except_ok_bind]
  rfl

theorem readEnumeration_of_describes {e : Enumeration} (h : DescribesEnumeration members e) :
    readEnumeration members e.name e.isPublic e.location = .ok e := by
  obtain ⟨all, found, variants⟩ := exists_objectList_mapM h.variants readVariant_of_describes
  have reprHint := optional_of_tells h.reprHint .text (fun _ => rfl) (by simp)
  simp only [readEnumeration, found, except_ok_bind, variants, optionalFlag_of_tells h.reprC, reprHint]
  rfl

theorem readStruct_of_describes {s : Struct} (h : DescribesStruct members s) :
    readStruct members s.name s.isPublic s.location = .ok s := by
  obtain ⟨all, found, fields⟩ := exists_objectList_mapM h.fields fun h => readMember_of_describes h .fieldType
  simp only [readStruct, found, except_ok_bind, fields, optionalFlag_of_tells h.reprC]
  rfl

theorem readFunction_of_describes {f : Function} (h : DescribesFunction members f) :
    readFunction members f.name f.isPublic f.location = .ok f := by
  obtain ⟨all, found, parameters⟩ :=
    exists_objectList_mapM h.parameters fun h => readMember_of_describes h .parameterType
  have exportName := optional_of_tells h.exportName .text (fun _ => rfl) (by simp)
  simp only [readFunction, found, except_ok_bind, parameters, readReturnType_of_describes h.returnType,
    optionalFlag_of_tells h.hasCLinkage, optionalFlag_of_tells h.isUnmangled, exportName]
  rfl

theorem readBody_of_describes {d : Declaration} (h : DescribesDeclaration members d) :
    ∃ kind, members.find? "kind" = some (.string kind) ∧ readBody members kind d.name = .ok d := by
  have isPublic := optionalFlag_of_tells h.isPublic
  have location := readLocation_of_describes h.location
  match d, h.body with
  | .alias a, body =>
    refine ⟨_, body.kind, ?_⟩
    rw [readBody, isPublic, location, except_ok_bind, except_ok_bind, if_pos rfl]
    exact congrArg (Declaration.alias <$> ·) (readAlias_of_describes body)
  | .enumeration e, body =>
    refine ⟨_, body.kind, ?_⟩
    rw [readBody, isPublic, location, except_ok_bind, except_ok_bind, if_neg (by decide), if_pos rfl]
    exact congrArg (Declaration.enumeration <$> ·) (readEnumeration_of_describes body)
  | .struct s, body =>
    refine ⟨_, body.kind, ?_⟩
    rw [readBody, isPublic, location, except_ok_bind, except_ok_bind, if_neg (by decide), if_neg (by decide),
      if_pos rfl]
    exact congrArg (Declaration.struct <$> ·) (readStruct_of_describes body)
  | .function f, body =>
    refine ⟨_, body.kind, ?_⟩
    rw [readBody, isPublic, location, except_ok_bind, except_ok_bind, if_neg (by decide), if_neg (by decide),
      if_neg (by decide), if_pos rfl]
    exact congrArg (Declaration.function <$> ·) (readFunction_of_describes body)

theorem readDeclaration_of_describes {d : Declaration} (h : DescribesDeclaration members d) (index : Nat) :
    readDeclaration index members = .ok d := by
  obtain ⟨kind, given, body⟩ := readBody_of_describes h
  rw [readDeclaration, require_text.2 given, require_text.2 h.name]
  exact congrArg (Except.mapError _) body

theorem readDeclarations_of_describes {all : List Members} {ds : List Declaration}
    (h : List.Forall₂ DescribesDeclaration all ds) (index : Nat) : readDeclarations index all = .ok ds := by
  induction h generalizing index with
  | nil => rfl
  | cons first _ ih =>
    rw [readDeclarations, readDeclaration_of_describes first, ih]
    rfl

theorem readModule_of_describes {m : Module} (h : DescribesModule members m) (filename : String) :
    readModule filename (.object members) = .ok m := by
  obtain ⟨all, found, described⟩ := objectList_of_tells h.declarations
  have path : optional members "module" .text = .ok (some m.path) := optional_seen h.path (by simp) rfl
  rw [readModule, path, found]
  exact congrArg (· >>= fun ds => pure (Source.Module.mk m.path ds)) (readDeclarations_of_describes described 0)

/-- Every module has a description, and whatever describes a module is read as this module, under any file name. -/
theorem described_read (m : Module) :
    Describes (describe m) m ∧ ∀ v filename, Describes v m → readModule filename v = .ok m := by
  refine ⟨describes_describe m, ?_⟩
  rintro _ filename ⟨members, rfl, h⟩
  exact readModule_of_describes h filename

/-- The name of a primitive stands for another type here, and the empty text for a symbol. -/
def boarding : Module :=
  ⟨"boarding", [.function ⟨"board", [⟨"seat", .pointer false (.named "i32" [.primitive .u8])⟩], .primitive .void, true,
    false, true, some "", some ⟨"crew.rs", 0, none⟩⟩]⟩

def seatType : Json.Value :=
  .object [("kind", .string "pointer"), ("mutable", .bool false),
    ("pointee", .object [("kind", .string "named"), ("name", .string "i32"),
      ("args", .array [.object [("kind", .string "primitive"), ("name", .string "uint8_t")]])])]

/-- The linkage and the column are left out, the return type is null, and a primitive is spelled in C. -/
def boardMembers : Members :=
  [("name", .string "board"), ("kind", .string "function"),
    ("parameters", .array [.object [("name", .string "seat"), ("type", seatType)]]), ("public", .bool true),
    ("no_mangle", .bool true), ("return_type", .null), ("export_name", .string ""),
    ("location", .object [("file", .string "crew.rs"), ("line", .int 0)])]

def boardingDescription : Json.Value :=
  .object [("module", .string "boarding"), ("declarations", .array [.object boardMembers])]

theorem described_read_boarding :
    Describes boardingDescription boarding ∧ readModule "crew.json" boardingDescription = .ok boarding := by
  have type : DescribesType seatType (.pointer false (.named "i32" [.primitive .u8])) :=
    .pointer rfl rfl (.applied rfl rfl rfl (.cons (.primitive rfl rfl (.inr rfl)) .nil)) (.written rfl rfl)
  have seat : DescribesMember [("name", .string "seat"), ("type", seatType)]
      ⟨"seat", .pointer false (.named "i32" [.primitive .u8])⟩ := ⟨rfl, _, rfl, type⟩
  have place : DescribesLocation [("file", .string "crew.rs"), ("line", .int 0)] ⟨"crew.rs", 0, none⟩ :=
    ⟨rfl, rfl, .leftOut (.inl rfl)⟩
  have board : DescribesDeclaration boardMembers (.function ⟨"board",
      [⟨"seat", .pointer false (.named "i32" [.primitive .u8])⟩], .primitive .void, true, false, true, some "",
      some ⟨"crew.rs", 0, none⟩⟩) :=
    ⟨rfl, .written rfl rfl, .written rfl ⟨_, _, rfl, rfl, place⟩,
      ⟨rfl, .written rfl ⟨[_], rfl, .cons seat .nil⟩, .leftOut (.inr rfl), .leftOut (.inl rfl), .written rfl rfl,
        .written rfl rfl⟩⟩
  have h : Describes boardingDescription boarding := ⟨_, rfl, rfl, .written rfl ⟨[_], rfl, .cons board .nil⟩⟩
  exact ⟨h, (described_read boarding).2 _ _ h⟩

end

end CInterface.Description
