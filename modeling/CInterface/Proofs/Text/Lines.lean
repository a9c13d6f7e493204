import CInterface.Text.Blank
import CInterface.Text.Identifier
import Mathlib.Data.List.Chain

/-!
# Lines, blocks of lines and conditional groups

A text is cut into lines at its line feeds. Blocks of lines with an empty line behind each of them are the blocks
joined by empty lines. The directives on the lines of a text are nested if every conditional group that is opened is
closed, with whole groups inside.
-/

namespace CInterface.Text

/-- The lines of a text, cut at every line feed. -/
def linesOf (s : String) : List String := (s.toList.splitOn '\n').map String.ofList

theorem linesOf_intercalate {lines : List String} (some : lines ≠ []) (plain : ∀ l ∈ lines, '\n' ∉ l.toList) :
    linesOf ("\n".intercalate lines) = lines := by
  have feed : "\n".toList = ['\n'] := rfl
  rw [linesOf, String.toList_intercalate, feed, List.splitOn_intercalate _ (by simpa using plain) (by simpa using some)]
  simp [Function.comp_def]

example : linesOf "a\n\nb\n" = ["a", "", "b", ""] := by decide

/-! ## Blocks -/

/-- Blocks of lines, joined by one empty line each. -/
def joined (blocks : List (List String)) : String := "\n\n".intercalate (blocks.map ("\n".intercalate ·))

/-- Blocks of lines with one empty line behind each of them. -/
def spaced (blocks : List (List String)) : List String := blocks.flatMap (· ++ [""])

theorem spaced_append (xs ys : List (List String)) : spaced (xs ++ ys) = spaced xs ++ spaced ys :=
  List.flatMap_append

variable {blocks : List (List String)}

theorem intercalate_spaced (some : blocks ≠ []) (filled : ∀ b ∈ blocks, b ≠ []) :
    "\n".intercalate (spaced blocks) = joined blocks ++ "\n" := by
  have ended {b : List String} (hb : b ≠ []) : "\n".intercalate (b ++ [""]) = "\n".intercalate b ++ "\n" := by
    rw [String.intercalate_append_of_ne_nil hb (by simp)]
    simp
  induction blocks with
  | nil => contradiction
  | cons b blocks ih =>
    obtain ⟨head, tail⟩ := List.forall_mem_cons.1 filled
    cases blocks with
    | nil => simp [spaced, joined, ended head]
    | cons b' blocks =>
      have rest := ih (by simp) tail
      have more : spaced (b' :: blocks) ≠ [] := by simp [spaced]
      have feeds : "\n" ++ "\n" = "\n\n" := rfl
      calc "\n".intercalate (spaced (b :: b' :: blocks))
          = "\n".intercalate ((b ++ [""]) ++ spaced (b' :: blocks)) := rfl
        _ = "\n".intercalate b ++ "\n" ++ "\n" ++ (joined (b' :: blocks) ++ "\n") := by
          rw [String.intercalate_append_of_ne_nil (by simp) more, ended head, rest]
        _ = "\n".intercalate b ++ "\n\n" ++ joined (b' :: blocks) ++ "\n" := by
          rw [← feeds]
          simp only [String.append_assoc]
        _ = joined (b :: b' :: blocks) ++ "\n" := by
          simp only [joined, List.map_cons, String.intercalate_cons_cons]

theorem joined_append_singleton (some : blocks ≠ []) (b : List String) :
    joined (blocks ++ [b]) = joined blocks ++ "\n\n" ++ "\n".intercalate b := by
  rw [joined, List.map_append, String.intercalate_append_of_ne_nil (by simpa using some) (by simp)]
  simp [joined]

/-- No two neighbours among lines are empty. -/
def EmptyLinesApart (lines : List String) : Prop := lines.IsChain fun l l' => l ≠ "" ∨ l' ≠ ""

instance (lines : List String) : Decidable (EmptyLinesApart lines) :=
  inferInstanceAs (Decidable (lines.IsChain _))

theorem EmptyLinesApart.append {block lines : List String} (h : EmptyLinesApart lines) (inked : "" ∉ block) :
    EmptyLinesApart (block ++ lines) := by
  induction block with
  | nil => exact h
  | cons l block ih =>
    obtain ⟨head, tail⟩ := not_or.1 (mt List.mem_cons.2 inked)
    exact (ih tail).cons fun _ _ => .inl (Ne.symm head)

theorem head_spaced (filled : ∀ b ∈ blocks, b ≠ [] ∧ "" ∉ b) : ∀ l ∈ (spaced blocks).head?, l ≠ "" := by
  cases blocks with
  | nil => simp [spaced]
  | cons b blocks =>
    obtain ⟨some, inked⟩ := filled b List.mem_cons_self
    obtain ⟨l, block, rfl⟩ := List.exists_cons_of_ne_nil some
    simp only [spaced, List.flatMap_cons, List.cons_append, List.head?_cons, Option.mem_some_iff, forall_eq']
    exact fun same => inked (List.mem_cons.2 (.inl same.symm))

/-- The empty lines between blocks stand apart if the blocks have none of their own. -/
theorem emptyLinesApart_spaced (filled : ∀ b ∈ blocks, b ≠ [] ∧ "" ∉ b) : EmptyLinesApart (spaced blocks) := by
  induction blocks with
  | nil => exact .nil
  | cons b blocks ih =>
    obtain ⟨⟨-, inked⟩, tail⟩ := List.forall_mem_cons.1 filled
    have rest : EmptyLinesApart ("" :: spaced blocks) := (ih tail).cons fun l hl => .inr (head_spaced tail l hl)
    rw [spaced, List.flatMap_cons, List.append_assoc]
    exact rest.append inked

/-! ## Conditional groups -/

/-- The name of the directive on a line, if the line is a directive. -/
def directiveName (line : String) : Option String :=
  match line.toList.dropWhile isBlank with
  | '#' :: rest => some (String.ofList ((rest.dropWhile isBlank).takeWhile isIdentifierPart))
  | _ => none

/-- A directive that opens a conditional group. -/
def Opens (line : String) : Prop := ∃ name ∈ ["if", "ifdef", "ifndef"], directiveName line = some name

/-- The directive that closes a conditional group. -/
def Closes (line : String) : Prop := directiveName line = some "endif"

/-- Lines in which every group that is opened is closed, and nothing else is. -/
inductive Nested : List String → Prop
  | nil : Nested []
  | line {l : String} {rest : List String} (plain : ¬ Opens l ∧ ¬ Closes l) : Nested rest → Nested (l :: rest)
  | group {opener closer : String} {inner rest : List String} (opens : Opens opener) (closes : Closes closer) :
    Nested inner → Nested rest → Nested (opener :: inner ++ closer :: rest)

theorem Nested.append {xs ys : List String} (hx : Nested xs) (hy : Nested ys) : Nested (xs ++ ys) := by
  induction hx with
  | nil => exact hy
  | line plain _ ih => exact .line plain ih
  | @group opener closer inner rest opens closes inside _ _ ih =>
    have whole := Nested.group opens closes inside ih
    rwa [List.append_assoc]

theorem Nested.of_plain {lines : List String} (plain : ∀ l ∈ lines, ¬ Opens l ∧ ¬ Closes l) : Nested lines := by
  induction lines with
  | nil => exact .nil
  | cons l lines ih =>
    obtain ⟨head, tail⟩ := List.forall_mem_cons.1 plain
    exact .line head (ih tail)

theorem plain_of_directiveName {line : String}
    (h : ∀ name ∈ directiveName line, name ∉ ["if", "ifdef", "ifndef", "endif"]) : ¬ Opens line ∧ ¬ Closes line := by
  constructor
  · rintro ⟨name, opens, found⟩
    exact h name found (List.mem_append_left ["endif"] opens)
  · intro closes
    exact h "endif" closes (by decide)

theorem directiveName_eq_none {line : String} (h : '#' ∉ line.toList) : directiveName line = none := by
  rw [directiveName]
  split
  · next rest shape =>
    have inside : '#' ∈ line.toList.dropWhile isBlank := by simp [shape]
    exact absurd ((List.dropWhile_sublist _).mem inside) h
  · rfl

end CInterface.Text
