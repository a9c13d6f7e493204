import CInterface.Description.Reader
import CInterface.Proofs.Except
import Mathlib.Tactic.MkIffOfInductiveProp
import Mathlib.Tactic.SplitIfs

/-!
# The format of descriptions

What a description looks like, said without reading it: which members an object must have, which ones it may have, and
of what form each is. A value is read exactly when it has this form.
-/

namespace CInterface.Description

open Source

/-! ## Forms of values -/

def Text (v : Json.Value) : Prop := ∃ s, v = .string s

/-- A whole number; a flag is none. -/
def Whole (v : Json.Value) : Prop := ∃ n, v = .int n

def Flag (v : Json.Value) : Prop := ∃ b, v = .bool b

def ListOf (P : Json.Value → Prop) (v : Json.Value) : Prop := ∃ items, v = .array items ∧ ∀ item ∈ items, P item

def ObjectOf (P : Json.Members → Prop) (v : Json.Value) : Prop := ∃ members, v = .object members ∧ P members

variable {members : Json.Members} {key : String} {P : Json.Value → Prop}

/-- A member that must be there. -/
def Has (members : Json.Members) (key : String) (P : Json.Value → Prop) : Prop :=
  ∃ v, members.find? key = some v ∧ P v

/-- A member that may be absent or null. -/
def MayHave (members : Json.Members) (key : String) (P : Json.Value → Prop) : Prop :=
  members.find? key = none ∨ members.find? key = some .null ∨ Has members key P

/-- A type: a string of any kind, or an object of one of three kinds. -/
inductive TypeForm : Json.Value → Prop where
  | shorthand (name : String) : TypeForm (.string name)
  | primitive {members : Json.Members} (p : Primitive) (kind : members.find? "kind" = some (.string "primitive"))
      (name : members.find? "name" = some (.string p.native) ∨ members.find? "name" = some (.string p.cName)) :
      TypeForm (.object members)
  | pointer {members : Json.Members} {pointee : Json.Value}
      (kind : members.find? "kind" = some (.string "pointer"))
      (target : members.find? "pointee" = some pointee) (formed : TypeForm pointee)
      (isMutable : MayHave members "mutable" Flag) : TypeForm (.object members)
  | named {members : Json.Members} (kind : members.find? "kind" = some (.string "named"))
      (name : Has members "name" Text)
      (bare : members.find? "args" = none ∨ members.find? "args" = some .null) : TypeForm (.object members)
  | applied {members : Json.Members} {args : List Json.Value} (kind : members.find? "kind" = some (.string "named"))
      (name : Has members "name" Text) (given : members.find? "args" = some (.array args))
      (formed : ∀ arg ∈ args, TypeForm arg) : TypeForm (.object members)

@[mk_iff]
structure LocationForm (members : Json.Members) : Prop where
  file : Has members "file" Text
  line : Has members "line" Whole
  column : MayHave members "column" Whole

@[mk_iff]
structure VariantForm (members : Json.Members) : Prop where
  name : Has members "name" Text
  value : MayHave members "value" Whole

/-- A field or a parameter. -/
@[mk_iff]
structure MemberForm (members : Json.Members) : Prop where
  type : Has members "type" TypeForm
  name : Has members "name" Text

@[mk_iff]
structure AliasForm (members : Json.Members) : Prop where
  target : Has members "target" TypeForm
  typeParams : MayHave members "type_params" (ListOf fun _ => True)

@[mk_iff]
structure EnumerationForm (members : Json.Members) : Prop where
  variants : MayHave members "variants" (ListOf (ObjectOf VariantForm))
  reprC : MayHave members "repr_c" Flag
  reprHint : MayHave members "repr_hint" Text

@[mk_iff]
structure StructForm (members : Json.Members) : Prop where
  fields : MayHave members "fields" (ListOf (ObjectOf MemberForm))
  reprC : MayHave members "repr_c" Flag

@[mk_iff]
structure FunctionForm (members : Json.Members) : Prop where
  parameters : MayHave members "parameters" (ListOf (ObjectOf MemberForm))
  returnType : MayHave members "return_type" TypeForm
  hasCLinkage : MayHave members "extern" Flag
  isUnmangled : MayHave members "no_mangle" Flag
  exportName : MayHave members "export_name" Text

/-- The members that the declarations of one kind have of their own. -/
def BodyForm (members : Json.Members) (kind : String) : Prop :=
  kind = "typedef" ∧ AliasForm members ∨ kind = "enum" ∧ EnumerationForm members ∨
    kind = "struct" ∧ StructForm members ∨ kind = "function" ∧ FunctionForm members

@[mk_iff]
structure DeclarationForm (members : Json.Members) : Prop where
  kind : ∃ kind, members.find? "kind" = some (.string kind) ∧ BodyForm members kind
  name : Has members "name" Text
  isPublic : MayHave members "public" Flag
  location : MayHave members "location" (ObjectOf LocationForm)

@[mk_iff]
structure ModuleForm (members : Json.Members) : Prop where
  path : MayHave members "module" Text
  declarations : MayHave members "declarations" (ListOf (ObjectOf DeclarationForm))

/-! ## Single members -/

/-- The form of the values that are seen in one shape. -/
def View.Form {α : Type} (view : View α) (v : Json.Value) : Prop := ∃ a, view.get? v = some a

section

variable {α : Type} {view : View α}

@[simp] theorem View.form_text : View.text.Form = Text := by
  funext v
  cases v <;> simp [View.Form, View.text, Text]

@[simp] theorem View.form_whole : View.whole.Form = Whole := by
  funext v
  cases v <;> simp [View.Form, View.whole, Whole]

@[simp] theorem View.form_flag : View.flag.Form = Flag := by
  funext v
  cases v <;> simp [View.Form, View.flag, Flag]

@[simp] theorem View.form_list : View.list.Form = ListOf fun _ => True := by
  funext v
  cases v <;> simp [View.Form, View.list, ListOf]

theorem View.get?_text {v : Json.Value} {s : String} : View.text.get? v = some s ↔ v = .string s := by
  cases v <;> simp [View.text]

theorem View.get?_list {v : Json.Value} {vs : List Json.Value} : View.list.get? v = some vs ↔ v = .array vs := by
  cases v <;> simp [View.list]

theorem View.get?_object {v : Json.Value} {ms : Json.Members} : View.object.get? v = some ms ↔ v = .object ms := by
  cases v <;> simp [View.object]

theorem View.read_ok {v : Json.Value} {a : α} : view.read key v = .ok a ↔ view.get? v = some a := by
  rw [View.read]
  cases view.get? v <;> simp

theorem require_ok {a : α} :
    require members key view = .ok a ↔ ∃ v, members.find? key = some v ∧ view.get? v = some a := by
  rw [require]
  cases members.find? key <;> simp [View.read_ok]

theorem require_seen {v : Json.Value} {a : α} (found : members.find? key = some v) (seen : view.get? v = some a) :
    require members key view = .ok a :=
  require_ok.2 ⟨v, found, seen⟩

theorem require_text {s : String} :
    require members key .text = .ok s ↔ members.find? key = some (.string s) := by
  simp [require_ok, View.get?_text]

@[simp] theorem yields_require : Yields (require members key view) ↔ Has members key view.Form := by
  simp only [Yields, require_ok, Has, View.Form, ← exists_and_left]
  exact exists_comm

theorem optional_absent (absent : members.find? key = none ∨ members.find? key = some .null) :
    optional members key view = .ok none := by
  obtain absent | null := absent
  · simp [optional, absent]
  · simp [optional, null]

theorem optional_given {v : Json.Value} (found : members.find? key = some v) (given : v ≠ .null) :
    optional members key view = (view.read key v).map some := by
  rw [optional, found]
  cases v with
  | null => exact absurd rfl given
  | _ => rfl

theorem absent_or_given (members : Json.Members) (key : String) :
    (members.find? key = none ∨ members.find? key = some .null) ∨ ∃ v, members.find? key = some v ∧ v ≠ .null := by
  cases found : members.find? key with
  | none => exact .inl (.inl rfl)
  | some v =>
    by_cases null : v = .null
    · exact .inl (.inr (by rw [null]))
    · exact .inr ⟨v, rfl, null⟩

/-- What is read of a member that may be absent: nothing if it is absent or null, and what is seen of it otherwise. -/
theorem optional_ok {o : Option α} : optional members key view = .ok o ↔
    (members.find? key = none ∨ members.find? key = some .null) ∧ o = none ∨
      ∃ v a, members.find? key = some v ∧ v ≠ .null ∧ view.get? v = some a ∧ o = some a := by
  obtain absent | ⟨v, found, given⟩ := absent_or_given members key
  · rw [optional_absent absent]
    constructor
    · rintro ⟨⟩
      exact .inl ⟨absent, rfl⟩
    · rintro (⟨-, rfl⟩ | ⟨v, a, found, given, -⟩)
      · rfl
      · simp_all
  · simp only [optional_given found given, except_map_ok, View.read_ok, found, Option.some.injEq, reduceCtorEq, given,
      or_self, false_and, false_or]
    constructor
    · rintro ⟨a, seen, rfl⟩
      exact ⟨v, a, rfl, given, seen, rfl⟩
    · rintro ⟨_, a, rfl, -, seen, rfl⟩
      exact ⟨a, seen, rfl⟩

theorem optional_seen {v : Json.Value} {a : α} (found : members.find? key = some v) (given : v ≠ .null)
    (seen : view.get? v = some a) : optional members key view = .ok (some a) :=
  optional_ok.2 (.inr ⟨v, a, found, given, seen, rfl⟩)

@[simp] theorem yields_optional : Yields (optional members key view) ↔ MayHave members key view.Form := by
  obtain absent | ⟨v, found, given⟩ := absent_or_given members key
  · rw [optional_absent absent]
    exact iff_of_true (yields_ok none) (or_assoc.1 (.inl absent))
  · simp only [optional_given found given, yields_map, MayHave, Has, found, Option.some.injEq, reduceCtorEq, given,
      false_or]
    simp [Yields, View.read_ok, View.Form]

@[simp] theorem yields_optionalFlag : Yields (optionalFlag members key) ↔ MayHave members key Flag := by
  simp [optionalFlag]

end

/-! ## Lists of objects -/

theorem objects_ok {index : Nat} {items : List Json.Value} {all : List Json.Members} :
    objects key index items = .ok all ↔ items = all.map .object := by
  induction items generalizing index all with
  | nil => simp [objects, eq_comm]
  | cons item items ih =>
    cases item with
    | object ms =>
      simp only [objects, except_map_ok, ih]
      cases all with
      | nil => simp
      | cons first others =>
        rw [List.map_cons, List.cons.injEq, Json.Value.object.injEq]
        constructor
        · rintro ⟨_, rfl, same⟩
          cases same
          exact ⟨rfl, rfl⟩
        · rintro ⟨rfl, rfl⟩
          exact ⟨others, rfl, rfl⟩
    | _ => cases all <;> simp [objects]

theorem objectList_ok {all : List Json.Members} : objectList members key = .ok all ↔
    (members.find? key = none ∨ members.find? key = some .null) ∧ all = [] ∨
      members.find? key = some (.array (all.map .object)) := by
  simp only [objectList, except_bind_ok, optional_ok, View.get?_list, objects_ok]
  constructor
  · rintro ⟨items, ⟨absent, rfl⟩ | ⟨v, vs, found, -, rfl, rfl⟩, same⟩
    · exact .inl ⟨absent, by simpa using same⟩
    · exact .inr (by simpa [← same] using found)
  · rintro (⟨absent, rfl⟩ | found)
    · exact ⟨none, .inl ⟨absent, rfl⟩, rfl⟩
    · exact ⟨some _, .inr ⟨_, _, found, by simp, rfl, rfl⟩, rfl⟩

theorem exists_members {Q : Json.Members → Prop} {items : List Json.Value}
    (formed : ∀ item ∈ items, ObjectOf Q item) :
    ∃ all : List Json.Members, items = all.map .object ∧ ∀ ms ∈ all, Q ms := by
  induction items with
  | nil => exact ⟨[], rfl, by simp⟩
  | cons item items ih =>
    obtain ⟨⟨ms, rfl, first⟩, others⟩ := List.forall_mem_cons.1 formed
    obtain ⟨all, rfl, rest⟩ := ih others
    exact ⟨ms :: all, rfl, List.forall_mem_cons.2 ⟨first, rest⟩⟩

/-- A list of objects that may be absent, all of one form. -/
theorem exists_objectList {Q : Json.Members → Prop} :
    (∃ all, objectList members key = .ok all ∧ ∀ ms ∈ all, Q ms) ↔ MayHave members key (ListOf (ObjectOf Q)) := by
  simp only [objectList_ok]
  constructor
  · rintro ⟨all, ⟨absent, rfl⟩ | found, formed⟩
    · exact absent.elim .inl (.inr ∘ .inl)
    · refine .inr (.inr ⟨_, found, _, rfl, fun item listed => ?_⟩)
      obtain ⟨ms, mem, rfl⟩ := List.mem_map.1 listed
      exact ⟨ms, rfl, formed ms mem⟩
  · rintro (absent | null | ⟨v, found, items, rfl, formed⟩)
    · exact ⟨[], .inl ⟨.inl absent, rfl⟩, by simp⟩
    · exact ⟨[], .inl ⟨.inr null, rfl⟩, by simp⟩
    · obtain ⟨all, rfl, each⟩ := exists_members formed
      exact ⟨all, .inr found, each⟩

/-! ## Types -/

theorem find?_cons_of_ne {name : String} (other : name ≠ key) (v : Json.Value) (rest : Json.Members) :
    Json.Members.find? ((name, v) :: rest) key = rest.find? key := by
  have passed : (key == name) = false := by simpa using Ne.symm other
  rw [Json.Members.find?, List.lookup_cons, passed]
  rfl

theorem readPointee_eq (members : Json.Members) : readPointee members = (members.find? "pointee").map readType := by
  induction members with
  | nil => rfl
  | cons m rest ih =>
    obtain ⟨name, v⟩ := m
    by_cases here : name = "pointee"
    · simp [readPointee, Json.Members.find?, here]
    · rw [readPointee, if_neg here, ih, find?_cons_of_ne here]

theorem readArguments_eq (members : Json.Members) : readArguments members =
    optional members "args" .list >>= fun args => readTypes (args.getD []) := by
  induction members with
  | nil => rfl
  | cons m rest ih =>
    obtain ⟨name, v⟩ := m
    by_cases here : name = "args"
    · subst here
      cases v <;> rfl
    · have passed : readArguments ((name, v) :: rest) = readArguments rest := by
        rw [readArguments.eq_def]
        exact if_neg here
      rw [passed, ih, optional, optional, find?_cons_of_ne here]

theorem yields_readTypes (vs : List Json.Value) : Yields (readTypes vs) ↔ ∀ v ∈ vs, Yields (readType v) := by
  induction vs with
  | nil => simp [readTypes]
  | cons v vs ih => simp [readTypes, yields_bind, exists_eq_ok, ih]

theorem exists_ofSpelling? (name : String) :
    (∃ p, Primitive.ofSpelling? name = some p) ↔ ∃ p : Primitive, name = p.native ∨ name = p.cName := by
  constructor
  · rintro ⟨p, spelled⟩
    rw [Primitive.ofSpelling?, Option.or_eq_some_iff] at spelled
    obtain native | ⟨-, inC⟩ := spelled
    · exact ⟨p, .inl (beq_iff_eq.1 (List.find?_eq_some_iff_append.1 native).1).symm⟩
    · exact ⟨p, .inr (beq_iff_eq.1 (List.find?_eq_some_iff_append.1 inC).1).symm⟩
  · rintro ⟨p, rfl | rfl⟩
    · exact ⟨p, p.ofSpelling?_native⟩
    · exact ⟨p, p.ofSpelling?_cName⟩

/-! What is read of an object of each of the three kinds. -/

theorem readType_eq_primitive {p : Primitive} {name : String}
    (kind : members.find? "kind" = some (.string "primitive")) (named : members.find? "name" = some (.string name))
    (spelled : name = p.native ∨ name = p.cName) : readType (.object members) = .ok (.primitive p) := by
  rw [readType, require_text.2 kind, except_ok_bind, if_pos rfl, require_text.2 named, except_ok_bind]
  obtain rfl | rfl := spelled
  · rw [p.ofSpelling?_native]
  · rw [p.ofSpelling?_cName]

theorem readType_eq_pointer {pointee : Json.Value} {t : TypeExpr} {isMutable : Option Bool}
    (kind : members.find? "kind" = some (.string "pointer")) (target : members.find? "pointee" = some pointee)
    (inner : readType pointee = .ok t) (marked : optional members "mutable" .flag = .ok isMutable) :
    readType (.object members) = .ok (.pointer (isMutable.getD true) t) := by
  rw [readType, require_text.2 kind, except_ok_bind, if_neg (by decide), if_pos rfl, readPointee_eq, target, marked,
    Option.map_some, inner]
  rfl

theorem readType_eq_named {name : String} {args : List TypeExpr}
    (kind : members.find? "kind" = some (.string "named")) (named : members.find? "name" = some (.string name))
    (given : readArguments members = .ok args) : readType (.object members) = .ok (.named name args) := by
  rw [readType, require_text.2 kind, except_ok_bind, if_neg (by decide), if_neg (by decide), if_pos rfl,
    require_text.2 named, given]
  rfl

theorem readType_primitive (kind : members.find? "kind" = some (.string "primitive")) :
    Yields (readType (.object members)) ↔ ∃ p : Primitive,
      members.find? "name" = some (.string p.native) ∨ members.find? "name" = some (.string p.cName) := by
  rw [readType, require_text.2 kind, except_ok_bind, if_pos rfl, yields_bind]
  simp only [require_text]
  constructor
  · rintro ⟨name, named, spelled⟩
    cases of : Primitive.ofSpelling? name with
    | none => simp [of] at spelled
    | some p =>
      obtain ⟨q, rfl | rfl⟩ := (exists_ofSpelling? name).1 ⟨p, of⟩
      · exact ⟨q, .inl named⟩
      · exact ⟨q, .inr named⟩
  · rintro ⟨p, named | named⟩
    · exact ⟨p.native, named, by simp⟩
    · exact ⟨p.cName, named, by simp⟩

theorem readType_pointer (kind : members.find? "kind" = some (.string "pointer")) :
    Yields (readType (.object members)) ↔
      MayHave members "mutable" Flag ∧ Has members "pointee" fun v => Yields (readType v) := by
  rw [readType, require_text.2 kind, except_ok_bind, if_neg (by decide), if_pos rfl, readPointee_eq]
  cases found : members.find? "pointee" with
  | none => simp [Has, found]
  | some v =>
    simp [Has, found, yields_bind, exists_eq_ok]

theorem readType_named (kind : members.find? "kind" = some (.string "named")) :
    Yields (readType (.object members)) ↔
      Has members "name" Text ∧ MayHave members "args" (ListOf fun v => Yields (readType v)) := by
  rw [readType, require_text.2 kind, except_ok_bind, if_neg (by decide), if_neg (by decide), if_pos rfl,
    readArguments_eq]
  simp only [yields_bind, yields_pure, and_true, exists_and_right, exists_eq_ok, yields_require, View.form_text]
  refine and_congr_right fun _ => ?_
  simp only [optional_ok, View.get?_list, yields_readTypes]
  constructor
  · rintro ⟨args, ⟨absent, rfl⟩ | ⟨_, vs, given, -, rfl, rfl⟩, formed⟩
    · exact or_assoc.1 (.inl absent)
    · exact .inr (.inr ⟨_, given, vs, rfl, formed⟩)
  · rintro (absent | null | ⟨_, given, vs, rfl, formed⟩)
    · exact ⟨none, .inl ⟨.inl absent, rfl⟩, by simp⟩
    · exact ⟨none, .inl ⟨.inr null, rfl⟩, by simp⟩
    · exact ⟨some vs, .inr ⟨_, vs, given, by simp, rfl, rfl⟩, formed⟩

theorem exists_kind (yields : Yields (readType (.object members))) :
    members.find? "kind" = some (.string "primitive") ∨ members.find? "kind" = some (.string "pointer") ∨
      members.find? "kind" = some (.string "named") := by
  rw [readType, yields_bind] at yields
  obtain ⟨tag, kind, yields⟩ := yields
  rw [require_text] at kind
  by_cases primitive : tag = "primitive"
  · exact .inl (primitive ▸ kind)
  · by_cases pointer : tag = "pointer"
    · exact .inr (.inl (pointer ▸ kind))
    · by_cases named : tag = "named"
      · exact .inr (.inr (named ▸ kind))
      · rw [if_neg primitive, if_neg pointer, if_neg named] at yields
        exact absurd yields (not_yields_error _)

theorem sizeOf_of_find? {v : Json.Value} (found : members.find? key = some v) : sizeOf v < sizeOf members := by
  induction members with
  | nil => cases found
  | cons m rest ih =>
    obtain ⟨name, w⟩ := m
    by_cases here : name = key
    · rw [Json.Members.find?, here, List.lookup_cons_self] at found
      cases found
      simp +arith
    · rw [find?_cons_of_ne here] at found
      have smaller := ih found
      simp only [List.cons.sizeOf_spec]
      omega

theorem typeForm_of_yields (v : Json.Value) (yields : Yields (readType v)) : TypeForm v := by
  match v, yields with
  | .string name, _ => exact .shorthand name
  | .object members, yields =>
    obtain kind | kind | kind := exists_kind yields
    · obtain ⟨p, name⟩ := (readType_primitive kind).1 yields
      exact .primitive p kind name
    · obtain ⟨isMutable, pointee, target, inner⟩ := (readType_pointer kind).1 yields
      have smaller := sizeOf_of_find? target
      exact .pointer kind target (typeForm_of_yields pointee inner) isMutable
    · obtain ⟨name, absent | null | ⟨_, given, args, rfl, each⟩⟩ := (readType_named kind).1 yields
      · exact .named kind name (.inl absent)
      · exact .named kind name (.inr null)
      · have smaller := sizeOf_of_find? given
        exact .applied kind name given fun arg listed =>
          have := List.sizeOf_lt_of_mem listed
          typeForm_of_yields arg (each arg listed)
  | .null, yields | .bool _, yields | .int _, yields | .float _, yields | .array _, yields =>
    exact absurd yields (not_yields_error _)
termination_by sizeOf v
decreasing_by
  · simp only [Json.Value.object.sizeOf_spec]
    omega
  · simp only [Json.Value.object.sizeOf_spec, Json.Value.array.sizeOf_spec] at *
    omega

/-- A type is read of exactly the values that have the form of one. -/
theorem yields_readType (v : Json.Value) : Yields (readType v) ↔ TypeForm v := by
  refine ⟨typeForm_of_yields v, fun formed => ?_⟩
  induction formed with
  | shorthand name => exact yields_ok _
  | primitive p kind name => exact (readType_primitive kind).2 ⟨p, name⟩
  | pointer kind target formed isMutable ih => exact (readType_pointer kind).2 ⟨isMutable, _, target, ih⟩
  | named kind name bare => exact (readType_named kind).2 ⟨name, or_assoc.1 (.inl bare)⟩
  | applied kind name given formed ih => exact (readType_named kind).2 ⟨name, .inr (.inr ⟨_, given, _, rfl, ih⟩)⟩

/-! ## Declarations -/

theorem exists_objectList_and {Q : Json.Members → Prop} {R : Prop} :
    (∃ all, objectList members key = .ok all ∧ (∀ ms ∈ all, Q ms) ∧ R) ↔
      MayHave members key (ListOf (ObjectOf Q)) ∧ R := by
  simp only [← and_assoc, exists_and_right, exists_objectList]

theorem yields_readVariant (members : Json.Members) : Yields (readVariant members) ↔ VariantForm members := by
  simp [readVariant, yields_bind, exists_eq_ok, variantForm_iff]

theorem yields_readMember (untyped : Cause) (members : Json.Members) :
    Yields (readMember untyped members) ↔ MemberForm members := by
  rw [readMember, memberForm_iff, Has]
  cases members.find? "type" with
  | none => simp
  | some v => simp [yields_bind, exists_eq_ok, yields_readType, and_comm]

theorem readReturnType_absent (absent : members.find? "return_type" = none ∨ members.find? "return_type" = some .null) :
    readReturnType members = .ok (.primitive .void) := by
  obtain absent | null := absent
  · rw [readReturnType, absent]
  · rw [readReturnType, null]

theorem readReturnType_given {v : Json.Value} (found : members.find? "return_type" = some v) (given : v ≠ .null) :
    readReturnType members = readType v := by
  rw [readReturnType, found]
  cases v with
  | null => exact absurd rfl given
  | _ => rfl

theorem yields_readReturnType (members : Json.Members) :
    Yields (readReturnType members) ↔ MayHave members "return_type" TypeForm := by
  rw [readReturnType, MayHave, Has]
  cases found : members.find? "return_type" with
  | none => simp
  | some v =>
    by_cases null : v = .null
    · simp [null]
    · simp [null, yields_readType]

theorem yields_readLocation (members : Json.Members) :
    Yields (readLocation members) ↔ MayHave members "location" (ObjectOf LocationForm) := by
  rw [readLocation, yields_bind]
  simp only [optional_ok, View.get?_object]
  constructor
  · rintro ⟨_, ⟨absent, rfl⟩ | ⟨_, place, given, -, rfl, rfl⟩, yields⟩
    · exact or_assoc.1 (.inl absent)
    · have formed : LocationForm place := by
        simpa [yields_bind, exists_eq_ok, locationForm_iff] using yields
      exact .inr (.inr ⟨_, given, place, rfl, formed⟩)
  · rintro (absent | null | ⟨_, given, place, rfl, formed⟩)
    · exact ⟨none, .inl ⟨.inl absent, rfl⟩, yields_pure _⟩
    · exact ⟨none, .inl ⟨.inr null, rfl⟩, yields_pure _⟩
    · refine ⟨some place, .inr ⟨_, place, given, by simp, rfl, rfl⟩, ?_⟩
      simpa [yields_bind, exists_eq_ok, locationForm_iff] using formed

section

variable (members : Json.Members) (name : String) (isPublic : Bool) (location : Option Location)

theorem yields_readAlias : Yields (readAlias members name isPublic location) ↔ AliasForm members := by
  rw [readAlias, aliasForm_iff, Has]
  cases members.find? "target" with
  | none => simp
  | some v => simp [yields_bind, exists_eq_ok, yields_readType, and_comm]

theorem yields_readEnumeration :
    Yields (readEnumeration members name isPublic location) ↔ EnumerationForm members := by
  simp [readEnumeration, yields_bind, exists_eq_ok, yields_mapM, yields_readVariant, exists_objectList_and,
    enumerationForm_iff]

theorem yields_readStruct : Yields (readStruct members name isPublic location) ↔ StructForm members := by
  simp [readStruct, yields_bind, exists_eq_ok, yields_mapM, yields_readMember, exists_objectList_and, structForm_iff]

theorem yields_readFunction : Yields (readFunction members name isPublic location) ↔ FunctionForm members := by
  simp [readFunction, yields_bind, exists_eq_ok, yields_mapM, yields_readMember, yields_readReturnType,
    exists_objectList_and, functionForm_iff]

end

theorem ite_iff_bodyForm (members : Json.Members) (kind : String) :
    (if kind = "typedef" then AliasForm members else if kind = "enum" then EnumerationForm members
      else if kind = "struct" then StructForm members else kind = "function" ∧ FunctionForm members) ↔
      BodyForm members kind := by
  rw [BodyForm]
  split_ifs with typedef enumeration struct
  · simp [typedef]
  · simp [enumeration]
  · simp [struct]
  · simp [typedef, enumeration, struct]

theorem yields_readBody (members : Json.Members) (kind name : String) : Yields (readBody members kind name) ↔
    MayHave members "public" Flag ∧ MayHave members "location" (ObjectOf LocationForm) ∧ BodyForm members kind := by
  simp [readBody, yields_bind, exists_eq_ok, apply_ite Yields, yields_readLocation, yields_readAlias,
    yields_readEnumeration, yields_readStruct, yields_readFunction, ite_iff_bodyForm]

theorem yields_readDeclaration (index : Nat) (members : Json.Members) :
    Yields (readDeclaration index members) ↔ DeclarationForm members := by
  simp only [readDeclaration, yields_bind, except_mapError_ok, require_text, yields_mapError, yields_readBody]
  constructor
  · rintro ⟨kind, given, name, named, isPublic, location, body⟩
    exact ⟨⟨kind, given, body⟩, ⟨_, named, name, rfl⟩, isPublic, location⟩
  · rintro ⟨⟨kind, given, body⟩, ⟨_, named, name, rfl⟩, isPublic, location⟩
    exact ⟨kind, given, name, named, isPublic, location, body⟩

theorem yields_readDeclarations (index : Nat) (all : List Json.Members) :
    Yields (readDeclarations index all) ↔ ∀ members ∈ all, DeclarationForm members := by
  induction all generalizing index with
  | nil => simp [readDeclarations]
  | cons members rest ih => simp [readDeclarations, yields_bind, exists_eq_ok, yields_readDeclaration, ih]

theorem yields_readModule (filename : String) (members : Json.Members) :
    Yields (readModule filename (.object members)) ↔ ModuleForm members := by
  simp [readModule, yields_bind, exists_eq_ok, except_mapError_ok, yields_readDeclarations, exists_objectList,
    moduleForm_iff]

/-- A description is read exactly when it has the form of one, whatever its file is called; any other value is refused
with a fault. -/
theorem read_iff_form (filename : String) (v : Json.Value) :
    ((∃ m, readModule filename v = .ok m) ↔ ObjectOf ModuleForm v) ∧
      ((∃ e, readModule filename v = .error e) ↔ ¬ ObjectOf ModuleForm v) := by
  have accepted : (∃ m, readModule filename v = .ok m) ↔ ObjectOf ModuleForm v := by
    cases v with
    | object members =>
      rw [exists_eq_ok, yields_readModule]
      constructor
      · exact fun formed => ⟨members, rfl, formed⟩
      · rintro ⟨_, ⟨⟩, formed⟩
        exact formed
    | _ => simp [readModule, ObjectOf]
  refine ⟨accepted, ?_⟩
  rw [← accepted]
  cases readModule filename v <;> simp

end CInterface.Description
