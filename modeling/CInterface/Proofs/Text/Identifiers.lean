import CInterface.Text.Blank
import CInterface.Text.Identifier
import Mathlib.Data.List.Basic
import Mathlib.Data.List.TakeWhile

/-!
# Identifiers and words

A word is made of the characters of identifiers. Identifiers are the words that start with no digit, and stay such with
words behind them. An identifier line may have one line feed behind its identifier, which trimming takes away with all
other blanks around it.
-/

namespace CInterface.Text

/-- A word is made of the characters of identifiers. -/
def IsWord (s : String) : Prop := ∀ c ∈ s.toList, isIdentifierPart c = true

theorem isWord_of_isIdentifier {s : String} (h : isIdentifier s = true) : IsWord s := by
  rw [isIdentifier] at h
  intro c hc
  split at h
  · contradiction
  · next start rest shape =>
    rw [Bool.and_eq_true, List.all_eq_true] at h
    rw [shape, List.mem_cons] at hc
    rcases hc with rfl | hc
    · exact isIdentifierPart_of_start h.1
    · exact h.2 c hc

theorem IsWord.not_mem {s : String} (h : IsWord s) {c : Char} (outside : isIdentifierPart c = false) :
    c ∉ s.toList := by
  intro hc
  rw [h c hc] at outside
  contradiction

variable {s t value name : String}

theorem isIdentifier_iff : isIdentifier s = true ↔
    ∃ c cs, s.toList = c :: cs ∧ isIdentifierStart c = true ∧ ∀ d ∈ cs, isIdentifierPart d = true := by
  rw [isIdentifier]
  cases s.toList with
  | nil => simp
  | cons c cs =>
    simp only [Bool.and_eq_true, List.all_eq_true, List.cons.injEq]
    constructor
    · rintro ⟨start, parts⟩
      exact ⟨c, cs, ⟨rfl, rfl⟩, start, parts⟩
    · rintro ⟨_, _, ⟨rfl, rfl⟩, start, parts⟩
      exact ⟨start, parts⟩

theorem isWord_append : IsWord (s ++ t) ↔ IsWord s ∧ IsWord t := by
  simp only [IsWord, String.toList_append, List.mem_append, or_imp, forall_and]

theorem isIdentifier_append (h : isIdentifier s = true) (word : IsWord t) : isIdentifier (s ++ t) = true := by
  obtain ⟨c, cs, shape, start, parts⟩ := isIdentifier_iff.1 h
  refine isIdentifier_iff.2 ⟨c, cs ++ t.toList, by rw [String.toList_append, shape, List.cons_append], start, ?_⟩
  intro d hd
  exact (List.mem_append.1 hd).elim (parts d) (word d)

theorem isWord_sanitized (s : String) : IsWord (sanitized s) := by
  intro d hd
  simp only [sanitized, String.toList_ofList, List.mem_map] at hd
  obtain ⟨c, -, rfl⟩ := hd
  split
  · assumption
  · decide

/-- One line feed may stand behind the identifier of an identifier line. -/
theorem isIdentifierLine_iff :
    isIdentifierLine s = true ↔ isIdentifier s = true ∨ ∃ name, isIdentifier name = true ∧ s = name ++ "\n" := by
  rw [isIdentifierLine, Bool.or_eq_true, Bool.and_eq_true, beq_iff_eq]
  constructor
  · rintro (identifier | ⟨last, identifier⟩)
    · exact .inl identifier
    · refine .inr ⟨_, identifier, String.toList_inj.1 ?_⟩
      rw [String.toList_append, String.toList_ofList]
      exact (List.dropLast_append_getLast? _ last).symm
  · rintro (identifier | ⟨name, identifier, rfl⟩)
    · exact .inl identifier
    · exact .inr (by simpa using identifier)

theorem isBlank_of_part {c : Char} (h : isIdentifierPart c = true) : isBlank c = false := by
  have upper (h : c.isUpper = true) : 65 ≤ c.toNat ∧ c.toNat ≤ 90 := of_decide_eq_true h
  have lower (h : c.isLower = true) : 97 ≤ c.toNat ∧ c.toNat ≤ 122 :=
    (Bool.and_eq_true_iff.1 h).imp of_decide_eq_true of_decide_eq_true
  have digit (h : c.isDigit = true) : 48 ≤ c.toNat ∧ c.toNat ≤ 57 :=
    (Bool.and_eq_true_iff.1 h).imp of_decide_eq_true of_decide_eq_true
  have range : 48 ≤ c.toNat ∧ c.toNat ≤ 122 := by
    obtain alphanumeric | underscore := Bool.or_eq_true_iff.1 h
    · obtain letter | number := Bool.or_eq_true_iff.1 alphanumeric
      · obtain large | small := Bool.or_eq_true_iff.1 letter
        · obtain ⟨low, high⟩ := upper large
          omega
        · obtain ⟨low, high⟩ := lower small
          omega
      · obtain ⟨low, high⟩ := digit number
        omega
    · rw [beq_iff_eq.1 underscore]
      decide
  simp [isBlank]
  omega

/-! ## Identifiers between blanks -/

/-- An identifier with nothing but blanks around it. -/
def Encloses (value name : String) : Prop :=
  isIdentifier name = true ∧ ∃ before after, (∀ c ∈ before ++ after, isBlank c = true) ∧
    value.toList = before ++ name.toList ++ after

theorem dropBlankEnd_blanks {cs : List Char} (blank : ∀ c ∈ cs, isBlank c = true) : dropBlankEnd cs = [] := by
  induction cs with
  | nil => rfl
  | cons c cs ih =>
    obtain ⟨head, tail⟩ := List.forall_mem_cons.1 blank
    simp [dropBlankEnd, ih tail, head]

theorem dropBlankEnd_append {cs after : List Char} (plain : ∀ c ∈ cs, isBlank c = false)
    (blank : ∀ c ∈ after, isBlank c = true) : dropBlankEnd (cs ++ after) = cs := by
  induction cs with
  | nil => exact dropBlankEnd_blanks blank
  | cons c cs ih =>
    obtain ⟨head, tail⟩ := List.forall_mem_cons.1 plain
    rw [List.cons_append, dropBlankEnd, ih tail]
    cases cs with
    | nil => simp [head]
    | cons d ds => rfl

/-- What is dropped is blank, and what is kept does not end in a blank. -/
theorem dropBlankEnd_split (cs : List Char) :
    (∃ after, cs = dropBlankEnd cs ++ after ∧ ∀ c ∈ after, isBlank c = true) ∧
      ∀ c ∈ (dropBlankEnd cs).getLast?, isBlank c = false := by
  induction cs with
  | nil => exact ⟨⟨[], rfl, nofun⟩, nofun⟩
  | cons c cs ih =>
    obtain ⟨⟨after, split, blank⟩, last⟩ := ih
    rw [dropBlankEnd]
    cases kept : dropBlankEnd cs with
    | nil =>
      rw [kept, List.nil_append] at split
      by_cases head : isBlank c = true
      · simp only [head, if_true]
        refine ⟨⟨c :: cs, rfl, List.forall_mem_cons.2 ⟨head, ?_⟩⟩, nofun⟩
        rw [split]
        exact blank
      · simp only [head]
        refine ⟨⟨cs, rfl, ?_⟩, by simpa using head⟩
        rw [split]
        exact blank
    | cons d ds =>
      rw [kept] at split last
      refine ⟨⟨after, by rw [List.cons_append, ← split], blank⟩, ?_⟩
      rwa [List.getLast?_cons_cons]

theorem toList_trim (s : String) : (trim s).toList = dropBlankEnd (s.toList.dropWhile isBlank) := by
  rw [trim, String.toList_ofList]

/-- Trimmed texts end in no line feed. -/
theorem isIdentifierLine_trim (s : String) : isIdentifierLine (trim s) = isIdentifier (trim s) := by
  have last := (dropBlankEnd_split (s.toList.dropWhile isBlank)).2
  rw [← toList_trim] at last
  rw [Bool.eq_iff_iff, isIdentifierLine_iff]
  refine or_iff_left ?_
  rintro ⟨name, -, line⟩
  rw [line] at last
  exact absurd (last '\n' (by simp)) (by decide)

theorem encloses_iff : Encloses value name ↔ isIdentifier (trim value) = true ∧ name = trim value := by
  constructor
  · rintro ⟨identifier, before, after, blank, split⟩
    have plain : ∀ c ∈ name.toList, isBlank c = false := fun c hc =>
      isBlank_of_part (isWord_of_isIdentifier identifier c hc)
    obtain ⟨c, cs, shape, start, -⟩ := isIdentifier_iff.1 identifier
    have front : value.toList.dropWhile isBlank = name.toList ++ after := by
      rw [split, List.append_assoc, List.dropWhile_append_of_pos fun c hc => blank c (List.mem_append_left _ hc), shape,
        List.cons_append, List.dropWhile_cons_of_neg (by simp [isBlank_of_part (isIdentifierPart_of_start start)])]
    have same : name = trim value := by
      rw [← String.toList_inj, toList_trim, front,
        dropBlankEnd_append plain fun c hc => blank c (List.mem_append_right _ hc)]
    exact ⟨same ▸ identifier, same⟩
  · rintro ⟨identifier, rfl⟩
    obtain ⟨⟨after, split, blank⟩, -⟩ := dropBlankEnd_split (value.toList.dropWhile isBlank)
    refine ⟨identifier, value.toList.takeWhile isBlank, after, fun c hc => ?_, ?_⟩
    · exact (List.mem_append.1 hc).elim List.mem_takeWhile_imp (blank c)
    · rw [toList_trim, List.append_assoc, ← split, List.takeWhile_append_dropWhile]

end CInterface.Text
