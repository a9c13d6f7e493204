import CInterface.Header.Text
import CInterface.Proofs.Text.Identifiers
import CInterface.Text.DecimalDigit

/-!
# The characters of a declaration

Types and declarations are written with their words and with the marks between them, whatever the words are. So a
character that is neither a mark nor part of a word occurs in no line of them.
-/

namespace CInterface

namespace Text

variable {marks : List Char} {s t : String}

/-- A text of words with marks between them. -/
def Within (marks : List Char) (s : String) : Prop := ∀ c ∈ s.toList, isIdentifierPart c = true ∨ c ∈ marks

instance (marks : List Char) (s : String) : Decidable (Within marks s) :=
  List.decidableBAll (fun c => isIdentifierPart c = true ∨ c ∈ marks) s.toList

theorem IsWord.within (h : IsWord s) : Within marks s := fun c hc => .inl (h c hc)

@[simp] theorem within_append : Within marks (s ++ t) ↔ Within marks s ∧ Within marks t := by
  simp only [Within, String.toList_append, List.mem_append, or_imp, forall_and]

theorem Within.between (h : Within marks s) {before after : String} (fixed : Within marks (before ++ after)) :
    Within marks (before ++ s ++ after) := by
  obtain ⟨front, back⟩ := within_append.1 fixed
  exact within_append.2 ⟨within_append.2 ⟨front, h⟩, back⟩

theorem within_intercalate {sep : String} {texts : List String} (between : Within marks sep)
    (h : ∀ t ∈ texts, Within marks t) : Within marks (sep.intercalate texts) := by
  induction texts with
  | nil => simp [Within]
  | cons t texts ih =>
    obtain ⟨head, tail⟩ := List.forall_mem_cons.1 h
    cases texts with
    | nil => simpa using head
    | cons t' texts =>
      rw [String.intercalate_cons_cons, within_append, within_append]
      exact ⟨⟨head, between⟩, ih tail⟩

theorem Within.mono {marks' : List Char} (h : Within marks s) (more : marks ⊆ marks') : Within marks' s :=
  fun c hc => (h c hc).imp_right (more ·)

theorem Within.not_mem (h : Within marks s) {c : Char} (outside : isIdentifierPart c = false) (hc : c ∉ marks) :
    c ∉ s.toList := by
  intro inside
  obtain part | mark := h c inside
  · rw [part] at outside
    contradiction
  · exact hc mark

theorem isIdentifierPart_of_isDigit {c : Char} (h : c.isDigit = true) : isIdentifierPart c = true := by
  simp [isIdentifierPart, Char.isAlphanum, h]

end Text

open Text

/-- What stands between the words of a type. -/
def typeMarks : List Char := [' ', '*']

/-- What stands between the words of a declaration. -/
def lineMarks : List Char := typeMarks ++ [',', ';', '=', '-', '(', ')', '{', '}']

/-- The names and qualifiers of a type, the innermost ones last. -/
def CType.words : CType → List String
  | .base b => b.name :: b.qualifiers
  | .pointer pointee qualifiers => qualifiers ++ pointee.words

def Slot.words (s : Slot) : List String := s.name :: s.type.words

/-- The names and qualifiers of a declaration. -/
def Item.words : Item → List String
  | .typedef d => d.name :: d.type.words
  | .enumeration d => d.name :: d.values.map (·.name)
  | .struct d => d.name :: d.fields.flatMap Slot.words
  | .prototype d => d.name :: d.returnType.words ++ d.parameters.flatMap Slot.words

/-- The names and qualifiers of all declarations of a header. -/
def Header.words (h : Header) : List String := h.items.flatMap Item.words

theorem CType.name_mem_words (t : CType) : t.baseType.name ∈ t.words := by
  induction t with
  | base b => exact List.mem_cons_self
  | pointer pointee qualifiers ih => exact List.mem_append_right _ ih

theorem Item.name_mem_words (i : Item) : i.name ∈ i.words := by
  cases i <;> exact List.mem_cons_self

/-- The words of a declaration are those of its types, among others. -/
theorem Item.words_reference {i : Item} {t : CType} (ht : t ∈ i.references) : t.words ⊆ i.words := by
  intro w hw
  have slot {slots : List Slot} (ht : t ∈ slots.map Slot.type) : w ∈ slots.flatMap Slot.words := by
    obtain ⟨s, hs, rfl⟩ := List.mem_map.1 ht
    exact List.mem_flatMap.2 ⟨s, hs, List.mem_cons_of_mem _ hw⟩
  cases i with
  | typedef d =>
    rw [List.mem_singleton.1 ht] at hw
    exact List.mem_cons_of_mem _ hw
  | enumeration d => contradiction
  | struct d => exact List.mem_cons_of_mem _ (slot ht)
  | prototype d =>
    obtain rfl | ht := List.mem_cons.1 ht
    · exact List.mem_append_left _ (List.mem_cons_of_mem _ hw)
    · exact List.mem_append_right _ (slot ht)

theorem Header.name_mem_words {h : Header} {i : Item} (hi : i ∈ h.items) : i.name ∈ h.words :=
  List.mem_flatMap.2 ⟨i, hi, i.name_mem_words⟩

theorem Header.baseName_mem_words {h : Header} {t : CType} (ht : t ∈ h.references) : t.baseType.name ∈ h.words := by
  obtain ⟨i, hi, ht⟩ := List.mem_flatMap.1 ht
  exact List.mem_flatMap.2 ⟨i, hi, Item.words_reference ht t.name_mem_words⟩

theorem CType.within_text {t : CType} (h : ∀ w ∈ t.words, IsWord w) : Within typeMarks t.text := by
  have line {qualifiers : List String} (h : ∀ q ∈ qualifiers, IsWord q) :
      Within typeMarks (" ".intercalate qualifiers) :=
    within_intercalate (by decide) fun q hq => (h q hq).within
  induction t with
  | base b =>
    obtain ⟨name, qualifiers⟩ := List.forall_mem_cons.1 h
    rw [text, BaseType.text]
    split
    · exact name.within
    · simp only [within_append]
      exact ⟨⟨line qualifiers, by decide⟩, name.within⟩
  | pointer pointee qualifiers ih =>
    obtain ⟨own, below⟩ := List.forall_mem_append.1 h
    rw [text, star]
    split
    · exact within_append.2 ⟨ih below, by decide⟩
    · simp only [within_append]
      exact ⟨⟨ih below, by decide⟩, line own⟩

theorem Slot.within_text {s : Slot} (h : ∀ w ∈ s.words, IsWord w) : Within typeMarks s.text := by
  obtain ⟨name, type⟩ := List.forall_mem_cons.1 h
  simp only [text, within_append]
  exact ⟨⟨CType.within_text type, by decide⟩, name.within⟩

/-- A whole number is written with digits and a sign. -/
theorem within_repr (n : Int) : Within lineMarks n.repr := fun c hc => by
  obtain digit | rfl := digit_or_minus_of_mem_repr hc
  · exact .inl (isIdentifierPart_of_isDigit digit)
  · exact .inr (by decide)

theorem Enumerator.within_line {v : Enumerator} (h : IsWord v.name) : Within lineMarks v.line := by
  have name : Within lineMarks v.name := h.within
  have number (n : Int) : Within lineMarks (toString n) := within_repr n
  rw [line]
  split
  · simp only [within_append, name, number, and_true]
    decide
  · exact name.between (by decide)

/-- The text between the parentheses of a prototype. -/
theorem within_parameters {parameters : List Slot} (h : ∀ p ∈ parameters, ∀ w ∈ p.words, IsWord w) :
    Within lineMarks (if parameters.isEmpty then "void" else ", ".intercalate (parameters.map Slot.text)) := by
  split
  · decide
  · refine within_intercalate (by decide) fun t ht => ?_
    obtain ⟨p, hp, rfl⟩ := List.mem_map.1 ht
    exact (Slot.within_text (h p hp)).mono (by decide)

theorem within_forwardLine {name : String} (h : IsWord name) : Within lineMarks (forwardLine name) := by
  have line : forwardLine name = "typedef struct " ++ name ++ " " ++ name ++ ";" := rfl
  have name : Within lineMarks name := h.within
  simp only [line, within_append, name, and_true]
  decide

/-- The lines of a declaration are written with its words and marks. -/
theorem Item.within_lines {i : Item} (h : ∀ w ∈ i.words, IsWord w) : ∀ l ∈ i.lines, Within lineMarks l := by
  have types : typeMarks ⊆ lineMarks := by decide
  intro l hl
  cases i with
  | typedef d =>
    obtain ⟨name, type⟩ := List.forall_mem_cons.1 h
    have type := (CType.within_text type).mono types
    have name : Within lineMarks d.name := name.within
    rw [List.mem_singleton.1 hl]
    simp only [Typedef.line, within_append, name, type, and_true]
    decide
  | enumeration d =>
    obtain ⟨name, values⟩ := List.forall_mem_cons.1 h
    have name : Within lineMarks d.name := name.within
    simp only [lines, EnumDefinition.lines, List.cons_append, List.nil_append, List.mem_cons, List.mem_append,
      List.mem_map, List.not_mem_nil, or_false] at hl
    obtain rfl | ⟨v, hv, rfl⟩ | rfl := hl
    · exact name.between (by decide)
    · exact Enumerator.within_line (values v.name (List.mem_map_of_mem hv))
    · exact name.between (by decide)
  | struct d =>
    obtain ⟨name, fields⟩ := List.forall_mem_cons.1 h
    have name : Within lineMarks d.name := name.within
    simp only [lines, StructDefinition.lines, List.cons_append, List.nil_append, List.mem_cons, List.mem_append,
      List.mem_map, List.not_mem_nil, or_false] at hl
    obtain rfl | ⟨f, hf, rfl⟩ | rfl := hl
    · exact name.between (by decide)
    · have field := (Slot.within_text fun w hw => fields w (List.mem_flatMap.2 ⟨f, hf, hw⟩)).mono types
      exact field.between (by decide)
    · exact name.between (by decide)
  | prototype d =>
    obtain ⟨front, slots⟩ := List.forall_mem_append.1 h
    obtain ⟨name, result⟩ := List.forall_mem_cons.1 front
    have name : Within lineMarks d.name := name.within
    have result := (CType.within_text result).mono types
    have parameters := within_parameters fun p hp w hw => slots w (List.mem_flatMap.2 ⟨p, hp, hw⟩)
    rw [List.mem_singleton.1 hl]
    simp only [Prototype.line, within_append, name, result, parameters, and_true]
    decide

end CInterface
