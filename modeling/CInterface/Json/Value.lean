import CInterface.Decimal.Binary64
import CInterface.Decimal.Digits

/-!
# JSON values

Whole numbers of any size and double precision numbers are kept apart. The members of an object keep the order
in which their names first occur; a name that occurs again replaces the value.
-/

namespace CInterface.Json

open Decimal (digitCount maxDigits)

inductive Value where
  | null
  | bool (b : Bool)
  | int (n : Int)
  | float (x : Decimal.Binary64)
  | string (s : String)
  | array (items : List Value)
  | object (members : List (String × Value))
  deriving Repr, Inhabited

abbrev Members := List (String × Value)

namespace Members

def find? (members : Members) (name : String) : Option Value := members.lookup name

/-- Replaces the value under a name, or adds the name at the end. -/
def put (members : Members) (name : String) (v : Value) : Members :=
  match members with
  | [] => [(name, v)]
  | (n, w) :: rest => if n = name then (name, v) :: rest else (n, w) :: put rest name v

theorem find?_put (members : Members) (name other : String) (v : Value) :
    (members.put name v).find? other = if other = name then some v else members.find? other := by
  induction members with
  | nil => by_cases h : other = name <;> simp_all [put, find?, List.lookup_cons, beq_eq_false_iff_ne.2]
  | cons m rest ih =>
    obtain ⟨n, w⟩ := m
    simp only [find?] at ih
    by_cases hn : n = name
    · subst hn
      by_cases h : other = n <;> simp_all [put, find?, List.lookup_cons, beq_eq_false_iff_ne.2]
    · by_cases h : other = n
      · subst h
        simp [put, find?, hn]
      · simp [put, find?, List.lookup_cons, hn, beq_eq_false_iff_ne.2 h, ih]

end Members

mutual

/-- The whole numbers in a value. -/
def Value.integers : Value → List Int
  | .int n => [n]
  | .array items => integersOfItems items
  | .object members => integersOfMembers members
  | _ => []

def integersOfItems : List Value → List Int
  | [] => []
  | v :: vs => v.integers ++ integersOfItems vs

def integersOfMembers : Members → List Int
  | [] => []
  | (_, v) :: members => v.integers ++ integersOfMembers members

end

/-- No whole number in a value has too many digits. -/
def Value.Sized (v : Value) : Prop := ∀ n ∈ v.integers, digitCount n ≤ maxDigits

instance : DecidablePred Value.Sized := fun v =>
  inferInstanceAs (Decidable (∀ n ∈ v.integers, digitCount n ≤ maxDigits))

theorem integersOfItems_eq (items : List Value) : integersOfItems items = items.flatMap Value.integers := by
  induction items with
  | nil => rfl
  | cons v vs ih => rw [integersOfItems, ih, List.flatMap_cons]

theorem integersOfMembers_eq (members : Members) : integersOfMembers members = members.flatMap (·.2.integers) := by
  induction members with
  | nil => rfl
  | cons m ms ih => rw [integersOfMembers, ih, List.flatMap_cons]

theorem sized_array {items : List Value} : (Value.array items).Sized ↔ ∀ v ∈ items, v.Sized := by
  simp only [Value.Sized, Value.integers, integersOfItems_eq, List.mem_flatMap, forall_exists_index, and_imp]
  exact ⟨fun h v hv n hn => h n v hv hn, fun h n v hv hn => h v hv n hn⟩

theorem sized_object {members : Members} : (Value.object members).Sized ↔ ∀ m ∈ members, m.2.Sized := by
  simp only [Value.Sized, Value.integers, integersOfMembers_eq, List.mem_flatMap, forall_exists_index, and_imp]
  exact ⟨fun h v hv n hn => h n v hv hn, fun h n v hv hn => h v hv n hn⟩

end CInterface.Json
