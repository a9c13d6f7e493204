import CInterface.Proofs.Description.Format
import Mathlib.Data.List.Nodup

/-!
# What is read of a description

A table says which members are read of each part of a description, and of what form each is. Nothing else has an effect:
objects that are alike in the members of the table are read alike, faults included.
-/

namespace CInterface.Description

open Source
open Json (Members)

/-! ## The members of each part -/

/-- The parts of a description. A member is a field or a parameter. -/
inductive Part where
  | document
  | declaration
  | variant
  | member
  | location
  | type
  deriving DecidableEq, Repr

/-- What stands under a key: a plain value, a part, or a list of parts. -/
inductive Content where
  | plain
  | one (part : Part)
  | many (part : Part)
  deriving DecidableEq, Repr

structure Key where
  name : String
  isRequired : Bool
  content : Content
  deriving DecidableEq, Repr

/-- The text under the key of a kind. -/
def kind? (members : Members) : Option String := (members.find? "kind").bind View.text.get?

/-- The keys of the declarations of one kind, apart from those of all declarations. -/
def bodyKeys (kind : String) : List Key :=
  if kind = "typedef" then [⟨"target", true, .one .type⟩, ⟨"type_params", false, .plain⟩]
  else if kind = "enum" then
    [⟨"variants", false, .many .variant⟩, ⟨"repr_c", false, .plain⟩, ⟨"repr_hint", false, .plain⟩]
  else if kind = "struct" then [⟨"fields", false, .many .member⟩, ⟨"repr_c", false, .plain⟩]
  else if kind = "function" then
    [⟨"parameters", false, .many .member⟩, ⟨"return_type", false, .one .type⟩, ⟨"extern", false, .plain⟩,
      ⟨"no_mangle", false, .plain⟩, ⟨"export_name", false, .plain⟩]
  else []

/-- The keys of the types of one kind, apart from the kind itself. -/
def typeKeys (kind : String) : List Key :=
  if kind = "primitive" then [⟨"name", true, .plain⟩]
  else if kind = "pointer" then [⟨"pointee", true, .one .type⟩, ⟨"mutable", false, .plain⟩]
  else if kind = "named" then [⟨"name", true, .plain⟩, ⟨"args", false, .many .type⟩]
  else []

/-- The keys that are read of a part. Of a declaration or a type without a kind, nothing else is read. -/
def Part.keys (kind : Option String) : Part → List Key
  | .document => [⟨"module", false, .plain⟩, ⟨"declarations", false, .many .declaration⟩]
  | .declaration =>
    ⟨"kind", true, .plain⟩ :: match kind with
      | none => []
      | some kind => ⟨"name", true, .plain⟩ :: ⟨"public", false, .plain⟩ :: ⟨"location", false, .one .location⟩ ::
          bodyKeys kind
  | .variant => [⟨"name", true, .plain⟩, ⟨"value", false, .plain⟩]
  | .member => [⟨"type", true, .one .type⟩, ⟨"name", true, .plain⟩]
  | .location => [⟨"file", true, .plain⟩, ⟨"line", true, .plain⟩, ⟨"column", false, .plain⟩]
  | .type =>
    ⟨"kind", true, .plain⟩ :: match kind with
      | none => []
      | some kind => typeKeys kind

theorem keys_nodup (part : Part) (kind : Option String) : ((part.keys kind).map Key.name).Nodup := by
  cases part with
  | declaration =>
    cases kind with
    | none => decide
    | some kind =>
      rw [Part.keys, bodyKeys]
      split_ifs <;> decide
  | document | variant | member | location => simp [Part.keys]
  | type =>
    cases kind with
    | none => decide
    | some kind =>
      rw [Part.keys, typeKeys]
      split_ifs <;> decide

theorem eq_of_key {part : Part} {kind : Option String} {k k' : Key} (hk : k ∈ part.keys kind)
    (hk' : k' ∈ part.keys kind) (same : k.name = k'.name) : k = k' :=
  List.inj_on_of_nodup_map (keys_nodup part kind) hk hk' same

/-! ## Members that are read alike -/

/-- The location under the key of a location. -/
def readPlace (members : Members) : Except Cause Location := do
  let file ← require members "file" .text
  let line ← require members "line" .whole
  return ⟨file, line, ← optional members "column" .whole⟩

theorem readLocation_eq (members : Members) : readLocation members =
    optional members "location" .object >>= fun
      | none => .ok none
      | some place => some <$> readPlace place := by
  rw [readLocation]
  congr 1
  funext place
  cases place with
  | none => rfl
  | some place => simp [readPlace]

/-- The same is read of two values as parts of a description. -/
inductive ReadAlike : Part → Json.Value → Json.Value → Prop where
  | document {ms ms' : Members}
      (same : ∀ filename, readModule filename (.object ms) = readModule filename (.object ms')) :
      ReadAlike .document (.object ms) (.object ms')
  | declaration {ms ms' : Members} (same : ∀ index, readDeclaration index ms = readDeclaration index ms') :
      ReadAlike .declaration (.object ms) (.object ms')
  | variant {ms ms' : Members} (same : readVariant ms = readVariant ms') :
      ReadAlike .variant (.object ms) (.object ms')
  | member {ms ms' : Members} (same : ∀ untyped, readMember untyped ms = readMember untyped ms') :
      ReadAlike .member (.object ms) (.object ms')
  | location {ms ms' : Members} (same : readPlace ms = readPlace ms') :
      ReadAlike .location (.object ms) (.object ms')
  | type {v v' : Json.Value} (given : v ≠ .null) (given' : v' ≠ .null) (same : readType v = readType v') :
      ReadAlike .type v v'

/-- Two objects differ under a key only in what does not change what is read. -/
inductive Key.Alike : Key → Members → Members → Prop where
  | same {k : Key} {ms ms' : Members} (same : ms.find? k.name = ms'.find? k.name) : Alike k ms ms'
  | null {name : String} {content : Content} {ms ms' : Members} (absent : ms.find? name = none)
      (null : ms'.find? name = some .null) : Alike ⟨name, false, content⟩ ms ms'
  | one {name : String} {isRequired : Bool} {inner : Part} {ms ms' : Members} {v v' : Json.Value}
      (found : ms.find? name = some v) (found' : ms'.find? name = some v') (alike : ReadAlike inner v v') :
      Alike ⟨name, isRequired, .one inner⟩ ms ms'
  | many {name : String} {isRequired : Bool} {inner : Part} {ms ms' : Members} {vs ws : List Json.Value}
      {v v' : Json.Value} (found : ms.find? name = some (.array (vs ++ v :: ws)))
      (found' : ms'.find? name = some (.array (vs ++ v' :: ws))) (alike : ReadAlike inner v v') :
      Alike ⟨name, isRequired, .many inner⟩ ms ms'

def AlikeOn (keys : List Key) (ms ms' : Members) : Prop := ∀ k ∈ keys, k.Alike ms ms'

section

variable {ms ms' : Members} {name : String} {inner : Part}

/-! What is read under one key. -/

theorem Key.Alike.find?_eq (h : Key.Alike ⟨name, true, .plain⟩ ms ms') : ms.find? name = ms'.find? name := by
  cases h with
  | same same => exact same

theorem require_congr {α : Type} (h : Key.Alike ⟨name, true, .plain⟩ ms ms') (view : View α) :
    require ms name view = require ms' name view := by
  rw [require, require, h.find?_eq]

theorem optional_congr {α : Type} (h : Key.Alike ⟨name, false, .plain⟩ ms ms') (view : View α) :
    optional ms name view = optional ms' name view := by
  cases h with
  | same same => rw [optional, optional, same]
  | null absent null => rw [optional_absent (.inl absent), optional_absent (.inr null)]

theorem optionalFlag_congr (h : Key.Alike ⟨name, false, .plain⟩ ms ms') :
    optionalFlag ms name = optionalFlag ms' name := by
  rw [optionalFlag, optionalFlag, optional_congr h]

/-- A type that must be there. -/
theorem map_readType_congr (h : Key.Alike ⟨name, true, .one .type⟩ ms ms') :
    (ms.find? name).map readType = (ms'.find? name).map readType := by
  cases h with
  | same same => rw [same]
  | one found found' alike =>
    cases alike with
    | type _ _ same => rw [found, found', Option.map_some, Option.map_some, same]

theorem readReturnType_congr (h : Key.Alike ⟨"return_type", false, .one .type⟩ ms ms') :
    readReturnType ms = readReturnType ms' := by
  cases h with
  | same same => rw [readReturnType, readReturnType, same]
  | null absent null => rw [readReturnType_absent (.inl absent), readReturnType_absent (.inr null)]
  | one found found' alike =>
    cases alike with
    | type given given' same => rw [readReturnType_given found given, readReturnType_given found' given', same]

theorem readLocation_congr (h : Key.Alike ⟨"location", false, .one .location⟩ ms ms') :
    readLocation ms = readLocation ms' := by
  rw [readLocation_eq, readLocation_eq]
  cases h with
  | same same => rw [optional, optional, same]
  | null absent null => rw [optional_absent (.inl absent), optional_absent (.inr null)]
  | one found found' alike =>
    cases alike with
    | location same =>
      rw [optional_seen found (by simp) rfl, optional_seen found' (by simp) rfl, except_ok_bind, except_ok_bind]
      exact congrArg (some <$> ·) same

theorem readTypes_replace {v v' : Json.Value} (same : readType v = readType v') (vs ws : List Json.Value) :
    readTypes (vs ++ v :: ws) = readTypes (vs ++ v' :: ws) := by
  induction vs with
  | nil => rw [List.nil_append, List.nil_append, readTypes, readTypes, same]
  | cons u vs ih => rw [List.cons_append, List.cons_append, readTypes, readTypes, ih]

theorem readArguments_congr (h : Key.Alike ⟨"args", false, .many .type⟩ ms ms') :
    readArguments ms = readArguments ms' := by
  rw [readArguments_eq, readArguments_eq]
  cases h with
  | same same => rw [optional, optional, same]
  | null absent null => rw [optional_absent (.inl absent), optional_absent (.inr null)]
  | many found found' alike =>
    cases alike with
    | type _ _ same =>
      rw [optional_seen found (by simp) rfl, optional_seen found' (by simp) rfl, except_ok_bind, except_ok_bind]
      exact readTypes_replace same _ _

/-! Lists of objects. -/

theorem ReadAlike.objects {v v' : Json.Value} (h : ReadAlike inner v v') (isObject : inner ≠ .type) :
    ∃ m m', v = .object m ∧ v' = .object m' ∧ ReadAlike inner (.object m) (.object m') := by
  cases h with
  | type => exact absurd rfl isObject
  | document same => exact ⟨_, _, rfl, rfl, .document same⟩
  | declaration same => exact ⟨_, _, rfl, rfl, .declaration same⟩
  | variant same => exact ⟨_, _, rfl, rfl, .variant same⟩
  | member same => exact ⟨_, _, rfl, rfl, .member same⟩
  | location same => exact ⟨_, _, rfl, rfl, .location same⟩

theorem objects_replace (key : String) (index : Nat) (vs ws : List Json.Value) (m m' : Members) :
    objects key index (vs ++ .object m :: ws) = objects key index (vs ++ .object m' :: ws) ∨
      ∃ xs ys, objects key index (vs ++ .object m :: ws) = .ok (xs ++ m :: ys) ∧
        objects key index (vs ++ .object m' :: ws) = .ok (xs ++ m' :: ys) := by
  induction vs generalizing index with
  | nil =>
    simp only [List.nil_append, objects]
    cases objects key (index + 1) ws with
    | error e => exact .inl rfl
    | ok ys => exact .inr ⟨[], ys, rfl, rfl⟩
  | cons v vs ih =>
    cases v with
    | object x =>
      simp only [List.cons_append, objects]
      obtain same | ⟨xs, ys, left, right⟩ := ih (index + 1)
      · exact .inl (congrArg _ same)
      · exact .inr ⟨x :: xs, ys, by rw [left]; rfl, by rw [right]; rfl⟩
    | _ => exact .inl rfl

/-- Of two lists of objects that are alike, the same is read, or they differ in one object. -/
theorem objectList_congr (h : Key.Alike ⟨name, false, .many inner⟩ ms ms') (isObject : inner ≠ .type) :
    objectList ms name = objectList ms' name ∨
      ∃ xs ys m m', objectList ms name = .ok (xs ++ m :: ys) ∧ objectList ms' name = .ok (xs ++ m' :: ys) ∧
        ReadAlike inner (.object m) (.object m') := by
  rw [objectList, objectList]
  cases h with
  | same same => exact .inl (by rw [optional, optional, same])
  | null absent null => exact .inl (by rw [optional_absent (.inl absent), optional_absent (.inr null)])
  | many found found' alike =>
    obtain ⟨m, m', rfl, rfl, alike⟩ := alike.objects isObject
    rw [optional_seen found (by simp) rfl, optional_seen found' (by simp) rfl, except_ok_bind, except_ok_bind]
    obtain same | ⟨xs, ys, left, right⟩ := objects_replace name 0 _ _ m m'
    · exact .inl same
    · exact .inr ⟨xs, ys, m, m', left, right, alike⟩

theorem mapM_replace {α : Type} {f : Members → Except Cause α} {m m' : Members} (same : f m = f m')
    (xs ys : List Members) : (xs ++ m :: ys).mapM f = (xs ++ m' :: ys).mapM f := by
  rw [List.mapM_append, List.mapM_append, List.mapM_cons, List.mapM_cons, same]

/-- What is read of each object of a list, before what is read of the rest. -/
theorem objectList_mapM_congr {α β : Type} {f : Members → Except Cause α} {g : List α → Except Cause β}
    (h : Key.Alike ⟨name, false, .many inner⟩ ms ms') (isObject : inner ≠ .type)
    (each : ∀ {m m' : Members}, ReadAlike inner (.object m) (.object m') → f m = f m') :
    (objectList ms name >>= fun all => all.mapM f >>= g) = (objectList ms' name >>= fun all => all.mapM f >>= g) := by
  obtain same | ⟨xs, ys, m, m', left, right, alike⟩ := objectList_congr h isObject
  · rw [same]
  · rw [left, right, except_ok_bind, except_ok_bind, mapM_replace (each alike)]

theorem readDeclarations_replace {m m' : Members} (same : ∀ index, readDeclaration index m = readDeclaration index m')
    (index : Nat) (xs ys : List Members) :
    readDeclarations index (xs ++ m :: ys) = readDeclarations index (xs ++ m' :: ys) := by
  induction xs generalizing index with
  | nil => rw [List.nil_append, List.nil_append, readDeclarations, readDeclarations, same]
  | cons x xs ih => rw [List.cons_append, List.cons_append, readDeclarations, readDeclarations, ih]

/-! ## Parts that are read alike -/

variable {kind : Option String}

theorem readPlace_congr (h : AlikeOn (Part.location.keys kind) ms ms') : readPlace ms = readPlace ms' := by
  obtain ⟨file, line, column⟩ := by simpa [AlikeOn, Part.keys] using h
  simp only [readPlace, require_congr file, require_congr line, optional_congr column]

theorem readVariant_congr (h : AlikeOn (Part.variant.keys kind) ms ms') : readVariant ms = readVariant ms' := by
  obtain ⟨name, value⟩ := by simpa [AlikeOn, Part.keys] using h
  simp only [readVariant, require_congr name, optional_congr value]

theorem readMember_eq (untyped : Cause) (members : Members) : readMember untyped members =
    match (members.find? "type").map readType with
    | none => .error untyped
    | some type => do
      let name ← require members "name" .text
      return ⟨name, ← type⟩ := by
  rw [readMember]
  cases members.find? "type" <;> rfl

theorem readMember_congr (h : AlikeOn (Part.member.keys kind) ms ms') (untyped : Cause) :
    readMember untyped ms = readMember untyped ms' := by
  obtain ⟨type, name⟩ := by simpa [AlikeOn, Part.keys] using h
  simp only [readMember_eq, require_congr name, map_readType_congr type]

theorem readAlias_eq (members : Members) (name : String) (isPublic : Bool) (location : Option Location) :
    readAlias members name isPublic location =
      match (members.find? "target").map readType with
      | none => .error (.missing "target")
      | some type => do
        let params ← optional members "type_params" .list
        let target ← type
        return ⟨name, target, (params.getD []).map Json.Value.display, isPublic, location⟩ := by
  rw [readAlias]
  cases members.find? "target" <;> rfl

theorem readAlias_congr (h : AlikeOn (bodyKeys "typedef") ms ms') (name : String) (isPublic : Bool)
    (location : Option Location) : readAlias ms name isPublic location = readAlias ms' name isPublic location := by
  obtain ⟨target, params⟩ := by simpa [AlikeOn, bodyKeys] using h
  simp only [readAlias_eq, map_readType_congr target, optional_congr params]

theorem readEnumeration_congr (h : AlikeOn (bodyKeys "enum") ms ms') (name : String) (isPublic : Bool)
    (location : Option Location) :
    readEnumeration ms name isPublic location = readEnumeration ms' name isPublic location := by
  obtain ⟨variants, reprC, reprHint⟩ := by simpa [AlikeOn, bodyKeys] using h
  simp only [readEnumeration, optionalFlag_congr reprC, optional_congr reprHint]
  refine objectList_mapM_congr variants (by decide) fun alike => ?_
  cases alike with
  | variant same => exact same

theorem readStruct_congr (h : AlikeOn (bodyKeys "struct") ms ms') (name : String) (isPublic : Bool)
    (location : Option Location) : readStruct ms name isPublic location = readStruct ms' name isPublic location := by
  obtain ⟨fields, reprC⟩ := by simpa [AlikeOn, bodyKeys] using h
  simp only [readStruct, optionalFlag_congr reprC]
  refine objectList_mapM_congr fields (by decide) fun alike => ?_
  cases alike with
  | member same => exact same .fieldType

theorem readFunction_congr (h : AlikeOn (bodyKeys "function") ms ms') (name : String) (isPublic : Bool)
    (location : Option Location) :
    readFunction ms name isPublic location = readFunction ms' name isPublic location := by
  obtain ⟨parameters, returnType, hasCLinkage, isUnmangled, exportName⟩ := by simpa [AlikeOn, bodyKeys] using h
  simp only [readFunction, readReturnType_congr returnType, optionalFlag_congr hasCLinkage,
    optionalFlag_congr isUnmangled, optional_congr exportName]
  refine objectList_mapM_congr parameters (by decide) fun alike => ?_
  cases alike with
  | member same => exact same .parameterType

theorem readBody_congr {kind : String} (isPublic : Key.Alike ⟨"public", false, .plain⟩ ms ms')
    (location : Key.Alike ⟨"location", false, .one .location⟩ ms ms') (body : AlikeOn (bodyKeys kind) ms ms')
    (name : String) : readBody ms kind name = readBody ms' kind name := by
  rw [readBody, readBody, optionalFlag_congr isPublic, readLocation_congr location]
  refine bind_congr fun isPublic => bind_congr fun location => ?_
  by_cases typedef : kind = "typedef"
  · rw [if_pos typedef, if_pos typedef, readAlias_congr (typedef ▸ body)]
  by_cases enumeration : kind = "enum"
  · rw [if_neg typedef, if_neg typedef, if_pos enumeration, if_pos enumeration,
      readEnumeration_congr (enumeration ▸ body)]
  by_cases struct : kind = "struct"
  · simp only [if_neg typedef, if_neg enumeration, if_pos struct, readStruct_congr (struct ▸ body)]
  by_cases function : kind = "function"
  · simp only [if_neg typedef, if_neg enumeration, if_neg struct, if_pos function, readFunction_congr (function ▸ body)]
  · simp only [if_neg typedef, if_neg enumeration, if_neg struct, if_neg function]

theorem kind?_eq_some {kind : String} : kind? ms = some kind ↔ ms.find? "kind" = some (.string kind) := by
  simp [kind?, Option.bind_eq_some_iff, View.get?_text]

theorem readDeclaration_congr (h : AlikeOn (Part.declaration.keys (kind? ms)) ms ms') (index : Nat) :
    readDeclaration index ms = readDeclaration index ms' := by
  have sameKind := require_congr (h ⟨"kind", true, .plain⟩ (by simp [Part.keys])) .text
  rw [readDeclaration, readDeclaration, ← sameKind]
  cases found : require ms "kind" .text with
  | error e => rfl
  | ok kind =>
    rw [kind?_eq_some.2 (require_text.1 found)] at h
    obtain ⟨-, name, isPublic, location, body⟩ := by simpa [AlikeOn, Part.keys] using h
    rw [require_congr name, except_mapError_ok.2 rfl, except_ok_bind, except_ok_bind]
    exact bind_congr fun name => congrArg _ (readBody_congr isPublic location body name)

theorem readModule_congr (h : AlikeOn (Part.document.keys kind) ms ms') (filename : String) :
    readModule filename (.object ms) = readModule filename (.object ms') := by
  obtain ⟨path, declarations⟩ := by simpa [AlikeOn, Part.keys] using h
  rw [readModule, readModule, optional_congr path]
  refine bind_congr fun path => ?_
  obtain same | ⟨xs, ys, m, m', left, right, alike⟩ := objectList_congr declarations (by decide)
  · rw [same]
  · cases alike with
    | declaration same =>
      rw [left, right]
      exact congrArg (· >>= fun declarations => pure (Source.Module.mk (path.getD filename) declarations))
        (readDeclarations_replace same 0 xs ys)

theorem readType_congr (h : AlikeOn (Part.type.keys (kind? ms)) ms ms') :
    readType (.object ms) = readType (.object ms') := by
  have sameKind := require_congr (h ⟨"kind", true, .plain⟩ (by simp [Part.keys])) .text
  rw [readType, readType, ← sameKind]
  cases found : require ms "kind" .text with
  | error e => rfl
  | ok kind =>
    rw [kind?_eq_some.2 (require_text.1 found)] at h
    rw [except_ok_bind, except_ok_bind]
    by_cases primitive : kind = "primitive"
    · obtain ⟨-, name⟩ := by simpa [AlikeOn, Part.keys, typeKeys, primitive] using h
      simp only [if_pos primitive, require_congr name]
    by_cases pointer : kind = "pointer"
    · obtain ⟨-, pointee, isMutable⟩ := by simpa [AlikeOn, Part.keys, typeKeys, pointer] using h
      simp only [if_neg primitive, if_pos pointer, readPointee_eq, map_readType_congr pointee,
        optional_congr isMutable]
    by_cases named : kind = "named"
    · obtain ⟨-, name, args⟩ := by simpa [AlikeOn, Part.keys, typeKeys, named] using h
      simp only [if_neg primitive, if_neg pointer, if_pos named, require_congr name,
        readArguments_congr args]
    · simp only [if_neg primitive, if_neg pointer, if_neg named]

theorem readAlike_of_alikeOn {part : Part} (h : AlikeOn (part.keys (kind? ms)) ms ms') :
    ReadAlike part (.object ms) (.object ms') := by
  cases part with
  | document => exact .document (readModule_congr h)
  | declaration => exact .declaration (readDeclaration_congr h)
  | variant => exact .variant (readVariant_congr h)
  | member => exact .member (readMember_congr h)
  | location => exact .location (readPlace_congr h)
  | type => exact .type (by simp) (by simp) (readType_congr h)

end

end CInterface.Description
