import CInterface.Proofs.Resolution.BaseTypes
import Mathlib.Data.List.Perm.Basic

/-!
# Headers and their sections

Putting declarations into sections only changes their order. The types that a header defines are the names of its
first three sections.
-/

namespace CInterface

open Source

namespace Header

/-- The names of the types that a header defines, section by section. -/
def typeNames (h : Header) : List String :=
  h.typedefs.map (·.name) ++ h.enumerations.map (·.name) ++ h.structs.map (·.name)

theorem ofItems_items_perm (target : String) (is : List Item) : (ofItems target is).items.Perm is := by
  simp only [items, ofItems]
  induction is with
  | nil => exact List.Perm.refl _
  | cons i is ih =>
    refine List.Perm.trans ?_ (ih.cons i)
    -- each kind but the first puts its item behind the sections before it
    cases i with
    | typedef d => exact List.Perm.refl _
    | enumeration d =>
      simp only [List.append_assoc]
      exact List.perm_middle
    | struct d =>
      simp only [List.append_assoc]
      exact (List.perm_middle.append_left _).trans List.perm_middle
    | prototype d => exact List.perm_middle

theorem mem_ofItems_items {target : String} {is : List Item} {i : Item} :
    i ∈ (ofItems target is).items ↔ i ∈ is :=
  (ofItems_items_perm target is).mem_iff

theorem typeNames_prefix (h : Header) : h.typeNames <+: h.items.map Item.name := by
  refine ⟨h.prototypes.map (·.name), ?_⟩
  simp only [typeNames, items, List.map_append, List.map_map]
  rfl

theorem mem_typeNames_ofItems {target : String} {is : List Item} {name : String} :
    name ∈ (ofItems target is).typeNames ↔ ∃ i ∈ is, i.kind ≠ .function ∧ i.name = name := by
  simp only [typeNames, ofItems, List.mem_append, List.mem_map, List.mem_filterMap]
  constructor
  · rintro ((⟨d, ⟨i, hi, hd⟩, rfl⟩ | ⟨d, ⟨i, hi, hd⟩, rfl⟩) | ⟨d, ⟨i, hi, hd⟩, rfl⟩) <;>
      cases i <;> cases hd <;> exact ⟨_, hi, nofun, rfl⟩
  · rintro ⟨i, hi, hk, rfl⟩
    cases i with
    | typedef d => exact .inl (.inl ⟨d, ⟨_, hi, rfl⟩, rfl⟩)
    | enumeration d => exact .inl (.inr ⟨d, ⟨_, hi, rfl⟩, rfl⟩)
    | struct d => exact .inr ⟨d, ⟨_, hi, rfl⟩, rfl⟩
    | prototype d => exact absurd rfl hk

end Header

end CInterface
