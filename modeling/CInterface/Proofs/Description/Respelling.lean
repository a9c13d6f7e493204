import CInterface.Proofs.Description.ReadKeys
import Mathlib.Logic.Relation

/-!
# Spellings of one description

A description can be spelled in several ways. A string in the place of a type may be written out as an object, a
primitive has two spellings, an optional member that is not given may be absent or null, and members that are not read
may be there or not. Such changes, at any number of places and depths, leave what is read, faults included.
-/

namespace CInterface.Description

open Source
open Json (Members)

/-- A part of a description is spelled in another way at one place, which may lie deep inside. -/
inductive Respells : Part → Json.Value → Json.Value → Prop where
  | primitive {name : String} (spelled : ∃ p : Primitive, name = p.native ∨ name = p.cName) :
      Respells .type (.string name) (.object [("kind", .string "primitive"), ("name", .string name)])
  | named {name : String} (other : ∀ p : Primitive, name ≠ p.native ∧ name ≠ p.cName) :
      Respells .type (.string name) (.object [("kind", .string "named"), ("name", .string name)])
  | shorthandInC (p : Primitive) : Respells .type (.string p.native) (.string p.cName)
  | primitiveInC (p : Primitive) {before after : Members}
      (kind : kind? (before ++ ("name", .string p.native) :: after) = some "primitive") :
      Respells .type (.object (before ++ ("name", .string p.native) :: after))
        (.object (before ++ ("name", .string p.cName) :: after))
  | null {part : Part} {before after : Members} (k : Key) (listed : k ∈ part.keys (kind? (before ++ after)))
      (isOptional : k.isRequired = false) (fresh : Members.find? (before ++ after) k.name = none) :
      Respells part (.object (before ++ after)) (.object (before ++ (k.name, .null) :: after))
  | unread {part : Part} {before after : Members} {key : String}
      (other : key ∉ (part.keys (kind? (before ++ after))).map Key.name) (v : Json.Value) :
      Respells part (.object (before ++ after)) (.object (before ++ (key, v) :: after))
  | within {part inner : Part} {before after : Members} {key : String} {isRequired : Bool} {v v' : Json.Value}
      (listed : ⟨key, isRequired, .one inner⟩ ∈ part.keys (kind? (before ++ (key, v) :: after)))
      (h : Respells inner v v') :
      Respells part (.object (before ++ (key, v) :: after)) (.object (before ++ (key, v') :: after))
  | withinList {part inner : Part} {before after : Members} {key : String} {isRequired : Bool}
      {vs ws : List Json.Value} {v v' : Json.Value}
      (listed : ⟨key, isRequired, .many inner⟩ ∈ part.keys (kind? (before ++ (key, .array (vs ++ v :: ws)) :: after)))
      (h : Respells inner v v') :
      Respells part (.object (before ++ (key, .array (vs ++ v :: ws)) :: after))
        (.object (before ++ (key, .array (vs ++ v' :: ws)) :: after))

section

variable {before after : Members}

/-! ## Changes at one place of an object -/

theorem find?_append (key : String) : Members.find? (before ++ after) key = (before.find? key).or (after.find? key) :=
  List.lookup_append

theorem find?_at (key : String) (v : Json.Value) :
    Members.find? (before ++ (key, v) :: after) key = (before.find? key).or (some v) := by
  have here : Members.find? ((key, v) :: after) key = some v := List.lookup_cons_self
  rw [find?_append, here]

theorem find?_beside {key other : String} (v : Json.Value) (h : other ≠ key) :
    Members.find? (before ++ (key, v) :: after) other = Members.find? (before ++ after) other := by
  rw [find?_append, find?_append, find?_cons_of_ne h.symm]

theorem alikeOn_null {part : Part} {kind : Option String} {k : Key} (listed : k ∈ part.keys kind)
    (isOptional : k.isRequired = false) (fresh : Members.find? (before ++ after) k.name = none) :
    AlikeOn (part.keys kind) (before ++ after) (before ++ (k.name, .null) :: after) := by
  intro other otherListed
  by_cases here : other.name = k.name
  · obtain rfl := eq_of_key otherListed listed here
    have absent : before.find? other.name = none := by
      rw [find?_append, Option.or_eq_none_iff] at fresh
      exact fresh.1
    obtain ⟨name, _, content⟩ := other
    cases isOptional
    refine .null fresh ?_
    rw [find?_at, absent, Option.none_or]
  · exact .same (find?_beside _ here).symm

theorem alikeOn_unread {keys : List Key} {key : String} (other : key ∉ keys.map Key.name) (v : Json.Value) :
    AlikeOn keys (before ++ after) (before ++ (key, v) :: after) := by
  intro k listed
  have here : k.name ≠ key := fun same => other (List.mem_map.2 ⟨k, listed, same⟩)
  exact .same (find?_beside v here).symm

/-- A member is replaced by another one that can stand for it, unless an earlier one under the same key hides it. -/
theorem alikeOn_replace {part : Part} {kind : Option String} {k : Key} {v v' : Json.Value}
    (listed : k ∈ part.keys kind)
    (alike : ∀ {ms ms' : Members}, ms.find? k.name = some v → ms'.find? k.name = some v' → k.Alike ms ms') :
    AlikeOn (part.keys kind) (before ++ (k.name, v) :: after) (before ++ (k.name, v') :: after) := by
  intro other otherListed
  by_cases here : other.name = k.name
  · obtain rfl := eq_of_key otherListed listed here
    cases hidden : before.find? other.name with
    | none => exact alike (by simp [find?_at, hidden]) (by simp [find?_at, hidden])
    | some w => exact .same (by simp [find?_at, hidden])
  · exact .same (by rw [find?_beside _ here, find?_beside _ here])

/-! ## Reading -/

theorem shorthand_primitive {p : Primitive} {name : String} (spelled : name = p.native ∨ name = p.cName) :
    shorthand name = .primitive p := by
  obtain rfl | rfl := spelled <;> simp [shorthand]

theorem shorthand_named {name : String} (other : ∀ p : Primitive, name ≠ p.native ∧ name ≠ p.cName) :
    shorthand name = .named name [] := by
  have unknown : Primitive.ofSpelling? name = none := by
    rw [Option.eq_none_iff_forall_ne_some]
    intro p spelled
    obtain ⟨q, native | inC⟩ := (exists_ofSpelling? name).1 ⟨p, spelled⟩
    · exact (other q).1 native
    · exact (other q).2 inC
  rw [shorthand, unknown]

/-- A name that is hidden behind an earlier one is not read, and of any other one the primitive. -/
theorem readType_primitiveInC (p : Primitive)
    (kind : kind? (before ++ ("name", .string p.native) :: after) = some "primitive") :
    readType (.object (before ++ ("name", .string p.native) :: after)) =
      readType (.object (before ++ ("name", .string p.cName) :: after)) := by
  cases hidden : before.find? "name" with
  | some w =>
    refine readType_congr fun k listed => .same ?_
    by_cases here : k.name = "name"
    · rw [here, find?_at, find?_at, hidden, Option.some_or, Option.some_or]
    · rw [find?_beside _ here, find?_beside _ here]
  | none =>
    have sameKind : Members.find? (before ++ ("name", .string p.cName) :: after) "kind" =
        some (.string "primitive") := by
      rw [← kind?_eq_some.1 kind, find?_beside _ (by decide), find?_beside _ (by decide)]
    have named (v : Json.Value) : Members.find? (before ++ ("name", v) :: after) "name" = some v := by
      rw [find?_at, hidden, Option.none_or]
    rw [readType_eq_primitive (kind?_eq_some.1 kind) (named _) (.inl rfl),
      readType_eq_primitive sameKind (named _) (.inr rfl)]

theorem readAlike_of_respells {part : Part} {v v' : Json.Value} (h : Respells part v v') : ReadAlike part v v' := by
  induction h with
  | primitive spelled =>
    obtain ⟨p, spelled⟩ := spelled
    refine .type (by simp) (by simp) ?_
    rw [readType, shorthand_primitive spelled, readType_eq_primitive rfl rfl spelled]
  | named other =>
    refine .type (by simp) (by simp) ?_
    rw [readType, shorthand_named other, readType_eq_named rfl rfl rfl]
  | shorthandInC p =>
    refine .type (by simp) (by simp) ?_
    rw [readType, readType, shorthand_primitive (.inl rfl), shorthand_primitive (.inr rfl)]
  | primitiveInC p kind => exact .type (by simp) (by simp) (readType_primitiveInC p kind)
  | null k listed isOptional fresh => exact readAlike_of_alikeOn (alikeOn_null listed isOptional fresh)
  | unread other v => exact readAlike_of_alikeOn (alikeOn_unread other v)
  | within listed h ih =>
    exact readAlike_of_alikeOn (alikeOn_replace listed fun found found' => .one found found' ih)
  | withinList listed h ih =>
    exact readAlike_of_alikeOn (alikeOn_replace listed fun found found' => .many found found' ih)

/-- However a description is spelled, and at however many places, the same is read of it: the same module, or the same
fault and so the same message. -/
theorem respelled_read {v v' : Json.Value} (h : Relation.EqvGen (Respells .document) v v') (filename : String) :
    readModule filename v = readModule filename v' := by
  induction h with
  | rel v v' step =>
    cases readAlike_of_respells step with
    | document same => exact same filename
  | refl v => rfl
  | symm v v' _ ih => exact ih.symm
  | trans v w v' _ _ left right => exact left.trans right

/-- A description of one function, whose only parameter is a pointer. -/
def scaling (pointee : Json.Value) (more : Members) : Json.Value :=
  .object [("declarations", .array [.object ([("kind", .string "function"), ("name", .string "scale"),
    ("parameters", .array [.object [("name", .string "factor"),
      ("type", .object [("kind", .string "pointer"), ("pointee", pointee)])]])] ++ more)])]

def writtenOut (name : String) : Json.Value := .object [("kind", .string "primitive"), ("name", .string name)]

/-- The pointee is written out in C, and the function is given a return type of null and a key that is not read. -/
theorem respelled_read_scaling :
    Relation.EqvGen (Respells .document) (scaling (.string "i32") [])
        (scaling (writtenOut "int32_t") [("return_type", .null), ("doc", .string "Scales.")]) ∧
      readModule "scale.json" (scaling (.string "i32") []) =
        readModule "scale.json"
          (scaling (writtenOut "int32_t") [("return_type", .null), ("doc", .string "Scales.")]) := by
  have inFunction {members members' : Members} (h : Respells .declaration (.object members) (.object members')) :
      Respells .document (.object [("declarations", .array [.object members])])
        (.object [("declarations", .array [.object members'])]) := by
    have listed : ⟨"declarations", false, .many .declaration⟩ ∈ Part.document.keys none := by decide
    exact @Respells.withinList .document .declaration [] [] _ _ [] [] _ _ listed h
  have inPointee {v v' : Json.Value} (h : Respells .type v v') :
      Respells .document (scaling v []) (scaling v' []) := by
    have pointee : ⟨"pointee", true, .one .type⟩ ∈ Part.type.keys (some "pointer") := by decide
    have type : ⟨"type", true, .one .type⟩ ∈ Part.member.keys none := by decide
    have parameters : ⟨"parameters", false, .many .member⟩ ∈ Part.declaration.keys (some "function") := by decide
    have inType := @Respells.within .type .type [("kind", .string "pointer")] [] _ _ v v' pointee h
    have inParameter := @Respells.within .member .type [("name", .string "factor")] [] _ _ _ _ type inType
    exact inFunction (@Respells.withinList .declaration .member [("kind", .string "function"),
      ("name", .string "scale")] [] _ _ [] [] _ _ parameters inParameter)
  have written : Respells .document (scaling (.string "i32") []) (scaling (writtenOut "i32") []) :=
    inPointee (.primitive ⟨.i32, .inl rfl⟩)
  have spelled : Respells .document (scaling (writtenOut "i32") []) (scaling (writtenOut "int32_t") []) :=
    inPointee (@Respells.primitiveInC .i32 [("kind", .string "primitive")] [] rfl)
  have returns : Respells .document (scaling (writtenOut "int32_t") [])
      (scaling (writtenOut "int32_t") [("return_type", .null)]) := by
    have listed : ⟨"return_type", false, .one .type⟩ ∈ Part.declaration.keys (some "function") := by decide
    exact inFunction (@Respells.null .declaration [_, _, _] [] ⟨"return_type", false, .one .type⟩ listed rfl rfl)
  have documented : Respells .document (scaling (writtenOut "int32_t") [("return_type", .null)])
      (scaling (writtenOut "int32_t") [("return_type", .null), ("doc", .string "Scales.")]) := by
    have unlisted : "doc" ∉ (Part.declaration.keys (some "function")).map Key.name := by decide
    refine inFunction (@Respells.unread .declaration [_, _, _, _] [] "doc" ?_ _)
    exact unlisted
  have inC := (Relation.EqvGen.rel _ _ written).trans _ _ _ (.rel _ _ spelled)
  have more := (Relation.EqvGen.rel _ _ returns).trans _ _ _ (.rel _ _ documented)
  have h := inC.trans _ _ _ more
  exact ⟨h, respelled_read h _⟩

end

end CInterface.Description
