import CInterface.Header.Document
import CInterface.Header.Text
import Mathlib.Data.List.Basic

/-!
# The numbers of a header

The numbers in the document of a header are those of its declarations, in order: the values of enumerations, and the
lines and columns of places.
-/

namespace CInterface

open Json (Value Members integersOfItems integersOfItems_eq integersOfMembers)
open Source (Location)

def locationNumbers : Option Location → List Int
  | none => []
  | some l => l.line :: l.column.toList

/-- The values and the place of a declaration. -/
def Source.Declaration.numbers : Source.Declaration → List Int
  | .alias a => locationNumbers a.location
  | .enumeration e => e.variants.filterMap Source.Variant.value ++ locationNumbers e.location
  | .struct s => locationNumbers s.location
  | .function f => locationNumbers f.location

/-- The values and the place of a declaration of a header. -/
def Item.numbers : Item → List Int
  | .typedef d => locationNumbers d.location
  | .enumeration d => d.values.filterMap Enumerator.value ++ locationNumbers d.location
  | .struct d => locationNumbers d.location
  | .prototype d => locationNumbers d.location

@[simp] theorem integersOfItems_map {α : Type} (f : α → Value) (xs : List α) :
    integersOfItems (xs.map f) = xs.flatMap fun x => (f x).integers := by
  rw [integersOfItems_eq, List.flatMap_map]

attribute [simp] Value.integers integersOfMembers

@[simp] theorem integersOfMembers_append (ms ms' : Members) :
    integersOfMembers (ms ++ ms') = integersOfMembers ms ++ integersOfMembers ms' := by
  simp only [Json.integersOfMembers_eq, List.flatMap_append]

@[simp] theorem integers_locationMember (location : Option Location) :
    integersOfMembers (locationMember location) = locationNumbers location := by
  cases location with
  | none => rfl
  | some l => obtain ⟨file, line, _ | column⟩ := l <;> rfl

@[simp] theorem integers_qualifierMember (qualifiers : List String) :
    integersOfMembers (qualifierMember qualifiers) = [] := by
  rw [qualifierMember]
  split
  · rfl
  · simp

@[simp] theorem CType.integers_document (t : CType) : t.document.integers = [] := by
  induction t with
  | base b => cases incomplete : b.isIncomplete <;> simp [document, BaseType.document, incomplete]
  | pointer pointee qualifiers ih => simp [document, pointerDocument, ih]

@[simp] theorem Slot.integers_document (s : Slot) : s.document.integers = [] := by
  simp [document]

@[simp] theorem Enumerator.integers_document (v : Enumerator) : v.document.integers = v.value.toList := by
  obtain ⟨name, _ | n⟩ := v <;> simp [document]

@[simp] theorem Typedef.integers_document (d : Typedef) : d.document.integers = (Item.typedef d).numbers := by
  simp [document, Item.numbers]

@[simp] theorem EnumDefinition.integers_document (d : EnumDefinition) :
    d.document.integers = (Item.enumeration d).numbers := by
  simp [document, Item.numbers, List.filterMap_eq_flatMap_toList]

@[simp] theorem StructDefinition.integers_document (d : StructDefinition) :
    d.document.integers = (Item.struct d).numbers := by
  simp [document, Item.numbers]

@[simp] theorem Prototype.integers_document (d : Prototype) :
    d.document.integers = (Item.prototype d).numbers := by
  simp [document, Item.numbers]

namespace Header

variable {h : Header}

theorem integers_document (h : Header) : h.document.integers = h.items.flatMap Item.numbers := by
  simp [document, items, List.flatMap_map]

/-- The values of enumerations are among the numbers of the document. -/
theorem mem_integers_of_mem_values {n : Int} (hn : n ∈ h.values) : n ∈ h.document.integers := by
  obtain ⟨d, hd, hn⟩ := List.mem_flatMap.1 hn
  rw [integers_document, List.mem_flatMap]
  exact ⟨.enumeration d, by simp [items, hd], List.mem_append_left _ hn⟩

end Header

end CInterface
