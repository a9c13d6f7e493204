import CInterface.FilePath
import Mathlib.Data.List.Basic
import Mathlib.Data.List.TakeWhile

/-!
# The last component of a path

The components of a path stand between its slashes; what is empty or a single dot is none. The stem of a component is
what stands before its last dot, if there is something on both sides of it, and all of it otherwise.
-/

namespace CInterface.FilePath

/-- What stands between the slashes of a text, without what is empty or a single dot. -/
def components (s : String) : List (List Char) := (s.toList.splitOn '/').filter fun part => part ≠ [] ∧ part ≠ ['.']

/-- A name is cut at its last dot, unless that stands first or last in it or there is none. -/
inductive IsStem : List Char → List Char → Prop
  | cut {stem suffix : List Char} (some : stem ≠ []) (more : suffix ≠ []) (last : '.' ∉ suffix) :
      IsStem (stem ++ '.' :: suffix) stem
  | edge {before after : List Char} (short : before = [] ∨ after = []) (last : '.' ∉ after) :
      IsStem (before ++ '.' :: after) (before ++ '.' :: after)
  | plain {name : List Char} (none : '.' ∉ name) : IsStem name name

theorem pieces_eq_splitOn (cs : List Char) : pieces cs = cs.splitOn '/' := by
  induction cs with
  | nil => simp [pieces]
  | cons c cs ih =>
    rw [pieces, List.splitOn_eq_splitOnP, List.splitOnP_cons_eq_if_modifyHead, ih, List.splitOn_eq_splitOnP]
    by_cases slash : c = '/'
    · simp [slash]
    · rw [if_neg slash, if_neg (by simpa using slash)]
      cases split : List.splitOnP (· == '/') cs with
      | nil => exact absurd split (List.splitOnP_ne_nil _ _)
      | cons p ps => rfl

theorem name_eq (s : String) : (ofString s).name = String.ofList ((components s).getLast?.getD []) := by
  rw [name, ofString, pieces_eq_splitOn, List.getLast?_map, components]
  cases List.getLast? _ <;> rfl

theorem mem_components {s : String} {part : List Char} (h : part ∈ components s) : part ≠ [] ∧ part ≠ ['.'] := by
  simpa using (List.mem_filter.1 h).2

/-- Behind a slash there is one more component. -/
theorem components_append {part : List Char} (plain : '/' ∉ part) (some : part ≠ []) (other : part ≠ ['.'])
    (directory : String) : components (directory ++ "/" ++ String.ofList part) = components directory ++ [part] := by
  have split : (directory ++ "/" ++ String.ofList part).toList = directory.toList ++ '/' :: part := by simp
  have single : part.splitOn '/' = [part] := by
    refine List.splitOnP_eq_singleton fun c hc => ?_
    rw [beq_eq_false_iff_ne]
    rintro rfl
    exact plain hc
  rw [components, split, List.splitOn_eq_splitOnP, List.splitOnP_append_cons _ _ (by simp), List.filter_append,
    ← List.splitOn_eq_splitOnP, ← List.splitOn_eq_splitOnP, single, components]
  simp [some, other]

/-- What is cut off is the last dot with all behind it, unless it is the first or the last character. -/
theorem stemOf_append {before after : List Char} (last : '.' ∉ after) :
    stemOf (before ++ '.' :: after) = if before = [] ∨ after = [] then before ++ '.' :: after else before := by
  have reversed : (before ++ '.' :: after).reverse.dropWhile (· ≠ '.') = '.' :: before.reverse := by
    have passed : ∀ c ∈ after.reverse, decide (c ≠ '.') = true := by
      intro c hc
      refine decide_eq_true ?_
      rintro rfl
      exact last (List.mem_reverse.1 hc)
    rw [List.reverse_append, List.reverse_cons, List.append_assoc, List.dropWhile_append_of_pos passed]
    simp
  have ends : (before ++ '.' :: after).getLast? = some '.' ↔ after = [] := by
    rw [List.getLast?_append_cons]
    cases after with
    | nil => simp
    | cons c cs =>
      rw [List.getLast?_cons_cons]
      exact iff_of_false (fun dot => last (List.mem_of_getLast? dot)) (by simp)
  rw [stemOf, reversed]
  simp only [Bool.or_eq_true, List.isEmpty_iff, List.reverse_eq_nil_iff, beq_iff_eq, ends, List.reverse_reverse]

theorem stemOf_of_not_mem {name : List Char} (h : '.' ∉ name) : stemOf name = name := by
  have none : name.reverse.dropWhile (· ≠ '.') = [] := by
    refine List.dropWhile_eq_nil_iff.2 fun c hc => decide_eq_true ?_
    rintro rfl
    exact h (List.mem_reverse.1 hc)
  rw [stemOf, none]

/-- A list with a dot can be split at its last one. -/
theorem exists_last_dot {name : List Char} (h : '.' ∈ name) :
    ∃ before after, name = before ++ '.' :: after ∧ '.' ∉ after := by
  obtain ⟨after, before, split, first⟩ := List.eq_append_cons_of_mem (List.mem_reverse.2 h)
  refine ⟨before.reverse, after.reverse, ?_, fun dot => first (List.mem_reverse.1 dot)⟩
  rw [← List.reverse_reverse name, split]
  simp

theorem isStem_iff {name stem : List Char} : IsStem name stem ↔ stem = stemOf name := by
  constructor
  · intro h
    cases h with
    | cut some more last => rw [stemOf_append last, if_neg (by simp [some, more])]
    | edge short last => rw [stemOf_append last, if_pos short]
    | plain none => rw [stemOf_of_not_mem none]
  · rintro rfl
    by_cases dot : '.' ∈ name
    · obtain ⟨before, after, rfl, last⟩ := exists_last_dot dot
      rw [stemOf_append last]
      split
      · next short => exact .edge short last
      · next long =>
        rw [not_or] at long
        exact .cut long.1 long.2 last
    · rw [stemOf_of_not_mem dot]
      exact .plain dot

theorem IsStem.ne_nil {name stem : List Char} (h : IsStem name stem) (some : name ≠ []) : stem ≠ [] := by
  cases h with
  | cut front => exact front
  | edge => simp
  | plain => exact some

end CInterface.FilePath
