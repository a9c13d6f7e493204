import Mathlib.Data.List.Nodup
import Mathlib.Data.List.Perm.Basic

/-!
# Lists with distinct keys

Where no two members of a list have one key, what is found under a key is the only member that has it, wherever it
stands in the list.
-/

namespace CInterface

variable {α : Type} {key : α → String} {xs ys : List α} {x : α} {k : String}

theorem find?_key_iff (distinct : (xs.map key).Nodup) :
    xs.find? (key · == k) = some x ↔ x ∈ xs ∧ key x = k := by
  constructor
  · intro found
    exact ⟨List.mem_of_find?_eq_some found, by simpa using List.find?_some found⟩
  · rintro ⟨mem, rfl⟩
    cases found : xs.find? (key · == key x) with
    | none => exact absurd (beq_self_eq_true (key x)) (List.find?_eq_none.1 found x mem)
    | some y =>
      have same : key y = key x := by simpa using List.find?_some found
      exact congrArg some (List.inj_on_of_nodup_map distinct (List.mem_of_find?_eq_some found) mem same)

theorem find?_key_perm (distinct : (xs.map key).Nodup) (perm : xs.Perm ys) (k : String) :
    xs.find? (key · == k) = ys.find? (key · == k) := by
  refine Option.ext fun x => ?_
  rw [find?_key_iff distinct, find?_key_iff ((perm.map key).nodup_iff.1 distinct), perm.mem_iff]

/-- Only one member has the key of a member. -/
theorem filter_key (distinct : (xs.map key).Nodup) (mem : x ∈ xs) : xs.filter (key · == key x) = [x] := by
  obtain ⟨before, after, rfl⟩ := List.append_of_mem mem
  rw [List.map_append, List.map_cons, List.nodup_middle, List.nodup_cons, ← List.map_append] at distinct
  have others : ∀ y ∈ before ++ after, ¬ (key y == key x) = true := fun y hy same =>
    distinct.1 (List.mem_map.2 ⟨y, hy, beq_iff_eq.1 same⟩)
  rw [List.forall_mem_append] at others
  rw [List.filter_append, List.filter_cons_of_pos (by simp), List.filter_eq_nil_iff.2 others.1,
    List.filter_eq_nil_iff.2 others.2, List.nil_append]

end CInterface
