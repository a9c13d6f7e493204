import CInterface.Proofs.Header.Characters
import CInterface.Proofs.Header.ForwardDeclarations
import CInterface.Proofs.Text.Lines
import CInterface.Proofs.Writer.Printing

/-!
# The layout of a header

The text of a header, if no number in it has too many digits, consists of blocks with one empty line between them. If
everything that is named in it is an identifier, the lines of the blocks are lines of the text, so that no block has an
empty line and the conditional groups are nested.
-/

namespace CInterface

open Decimal (digitCount maxDigits)
open Text

/-- Lines as a block, if there are any. -/
def optionalBlock (lines : List String) : List (List String) := if lines.isEmpty then [] else [lines]

namespace Header

/-- The blocks between the opening of the linkage block and its end. -/
def sections (h : Header) : List (List String) :=
  optionalBlock (h.includes.map Include.directive)
    ++ optionalBlock (h.incompleteNames.map forwardLine ++ h.earlyStructs.map forwardLine
      ++ h.typedefs.map Typedef.line)
    ++ h.enumerations.map EnumDefinition.lines
    ++ h.structs.map StructDefinition.lines
    ++ optionalBlock (h.prototypes.map Prototype.line)

/-- The blocks of a header under a guard, in the order of the text. -/
def blocks (guard : String) (h : Header) : List (List String) :=
  [["#ifndef " ++ guard, "#define " ++ guard], ["#ifdef __cplusplus", "extern \"C\" \x7b", "#endif"]]
    ++ h.sections
    ++ [["#ifdef __cplusplus", "\x7d", "#endif"], ["#endif"]]

variable {guard : String} {h : Header}

theorem closed_of_ne_nil {lines : List String} (some : lines ≠ []) : closed lines = lines ++ [""] := by
  simp [closed, some]

theorem spaced_optionalBlock (lines : List String) : spaced (optionalBlock lines) = closed lines := by
  cases lines <;> simp [spaced, optionalBlock, closed]

theorem spaced_map {α : Type} (f : α → List String) (some : ∀ a, f a ≠ []) (as : List α) :
    spaced (as.map f) = as.flatMap (closed <| f ·) := by
  simp only [spaced, List.flatMap_map, closed_of_ne_nil (some _)]

/-- The lines of a header are those of its blocks, with an empty line behind each block but the last one. -/
theorem lines_append_blank (guard : String) (h : Header) : h.lines guard ++ [""] = spaced (h.blocks guard) := by
  have enumerations (d : EnumDefinition) : d.lines ≠ [] := by simp [EnumDefinition.lines]
  have structs (d : StructDefinition) : d.lines ≠ [] := by simp [StructDefinition.lines]
  simp only [lines, blocks, sections, spaced_append, spaced_optionalBlock, spaced_map _ enumerations,
    spaced_map _ structs, typedefSection, List.append_assoc]
  rfl

theorem mem_optionalBlock {lines b : List String} (hb : b ∈ optionalBlock lines) : b = lines ∧ b ≠ [] := by
  rw [optionalBlock] at hb
  split at hb
  · contradiction
  · next some =>
    obtain rfl := List.mem_singleton.1 hb
    exact ⟨rfl, by simpa using some⟩

/-- What a line of a section can be. -/
inductive SectionLine (h : Header) : String → Prop
  | directive (i : Include) : SectionLine h i.directive
  | forward {name : String} (hn : name ∈ h.words) : SectionLine h (forwardLine name)
  | item {i : Item} {l : String} (hi : i ∈ h.items) (hl : l ∈ i.lines) : SectionLine h l

theorem mem_words_of_forward {name : String} (hn : name ∈ h.incompleteNames ∨ name ∈ h.earlyStructs) :
    name ∈ h.words := by
  obtain hn | hn := hn
  · obtain ⟨t, ht, -, rfl⟩ := mem_incompleteNames.1 hn
    exact baseName_mem_words ht
  · obtain ⟨d, hd, rfl⟩ := List.mem_map.1 (earlyStructs_subset hn)
    exact name_mem_words (i := .struct d) (by simp [items, hd])

theorem sectionLine_of_mem {b : List String} (hb : b ∈ h.sections) : b ≠ [] ∧ ∀ l ∈ b, SectionLine h l := by
  simp only [sections, List.mem_append, or_assoc] at hb
  obtain hb | hb | hb | hb | hb := hb
  · obtain ⟨rfl, some⟩ := mem_optionalBlock hb
    refine ⟨some, fun l hl => ?_⟩
    obtain ⟨i, -, rfl⟩ := List.mem_map.1 hl
    exact .directive i
  · obtain ⟨rfl, some⟩ := mem_optionalBlock hb
    refine ⟨some, fun l hl => ?_⟩
    simp only [List.mem_append, List.mem_map] at hl
    obtain (⟨name, hn, rfl⟩ | ⟨name, hn, rfl⟩) | ⟨d, hd, rfl⟩ := hl
    · exact .forward (mem_words_of_forward (.inl hn))
    · exact .forward (mem_words_of_forward (.inr hn))
    · exact .item (i := .typedef d) (by simp [items, hd]) List.mem_cons_self
  · obtain ⟨d, hd, rfl⟩ := List.mem_map.1 hb
    exact ⟨by simp [EnumDefinition.lines], fun l hl => .item (i := .enumeration d) (by simp [items, hd]) hl⟩
  · obtain ⟨d, hd, rfl⟩ := List.mem_map.1 hb
    exact ⟨by simp [StructDefinition.lines], fun l hl => .item (i := .struct d) (by simp [items, hd]) hl⟩
  · obtain ⟨rfl, some⟩ := mem_optionalBlock hb
    refine ⟨some, fun l hl => ?_⟩
    obtain ⟨d, hd, rfl⟩ := List.mem_map.1 hl
    exact .item (i := .prototype d) (by simp [items, hd]) List.mem_cons_self

end Header

theorem Item.blank_not_mem_lines (i : Item) : "" ∉ i.lines := by
  cases i with
  | typedef d => simp [lines, Typedef.line]
  | enumeration d =>
    have values (v : Enumerator) : v.line ≠ "" := by
      rw [Enumerator.line]
      split <;> simp
    simp [lines, EnumDefinition.lines, values]
  | struct d => simp [lines, StructDefinition.lines]
  | prototype d => simp [lines, Prototype.line]

namespace Header

variable {guard : String} {h : Header}

theorem SectionLine.ne_blank {l : String} (hl : SectionLine h l) : l ≠ "" := by
  cases hl with
  | directive i => cases i <;> decide
  | @forward name hn =>
    have line : forwardLine name = "typedef struct " ++ name ++ " " ++ name ++ ";" := rfl
    simp [line]
  | @item i l hi hl => exact fun same => i.blank_not_mem_lines (same ▸ hl)

/-- Lines of sections are directives or written with words and marks. -/
theorem SectionLine.directive_or_within {l : String} (hl : SectionLine h l) (words : ∀ w ∈ h.words, IsWord w) :
    (∃ i : Include, l = i.directive) ∨ Within lineMarks l := by
  cases hl with
  | directive i => exact .inl ⟨i, rfl⟩
  | forward hn => exact .inr (within_forwardLine (words _ hn))
  | @item i l hi hl =>
    exact .inr (Item.within_lines (fun w hw => words w (List.mem_flatMap.2 ⟨i, hi, hw⟩)) l hl)

theorem SectionLine.newline_not_mem {l : String} (hl : SectionLine h l) (words : ∀ w ∈ h.words, IsWord w) :
    '\n' ∉ l.toList := by
  obtain ⟨i, rfl⟩ | within := hl.directive_or_within words
  · cases i <;> decide
  · exact within.not_mem (by decide) (by decide)

theorem SectionLine.plain {l : String} (hl : SectionLine h l) (words : ∀ w ∈ h.words, IsWord w) :
    ¬ Opens l ∧ ¬ Closes l := by
  refine plain_of_directiveName fun name hn => ?_
  obtain ⟨i, rfl⟩ | within := hl.directive_or_within words
  · have support : directiveName i.directive = some "include" := by cases i <;> rfl
    rw [support, Option.mem_some_iff] at hn
    rw [← hn]
    decide
  · rw [directiveName_eq_none (within.not_mem (by decide) (by decide))] at hn
    contradiction

/-- No block of a header is empty, and none holds an empty line. -/
theorem blocks_filled (guard : String) (h : Header) : ∀ b ∈ h.blocks guard, b ≠ [] ∧ "" ∉ b := by
  intro b hb
  simp only [blocks, List.mem_append, List.mem_cons, List.not_mem_nil, or_false] at hb
  obtain ((rfl | rfl) | hb) | rfl | rfl := hb
  · simp
  · simp
  · obtain ⟨some, lines⟩ := sectionLine_of_mem hb
    exact ⟨some, fun blank => (lines "" blank).ne_blank rfl⟩
  · simp
  · simp

theorem newline_not_mem_blocks (guarded : IsWord guard) (words : ∀ w ∈ h.words, IsWord w) :
    ∀ b ∈ h.blocks guard, ∀ l ∈ b, '\n' ∉ l.toList := by
  have plain : '\n' ∉ guard.toList := guarded.not_mem (by decide)
  intro b hb
  simp only [blocks, List.mem_append, List.mem_cons, List.not_mem_nil, or_false] at hb
  obtain ((rfl | rfl) | hb) | rfl | rfl := hb
  · simp [plain]
  · simp
  · exact fun l hl => ((sectionLine_of_mem hb).2 l hl).newline_not_mem words
  · simp
  · simp

theorem text_eq_intercalate (guard : String) (h : Header) :
    h.text guard = "\n".intercalate (spaced (h.blocks guard)) := by
  have some : h.lines guard ≠ [] := by simp [lines, opening]
  rw [← lines_append_blank, String.intercalate_append_of_ne_nil some (by simp), text]
  simp

theorem linesOf_text (guarded : IsWord guard) (words : ∀ w ∈ h.words, IsWord w) :
    linesOf (h.text guard) = spaced (h.blocks guard) := by
  rw [text_eq_intercalate]
  refine linesOf_intercalate (by simp [spaced, blocks]) fun l hl => ?_
  obtain ⟨b, hb, hl⟩ := List.mem_flatMap.1 hl
  obtain hl | rfl := List.mem_append.1 hl |>.imp_right List.mem_singleton.1
  · exact newline_not_mem_blocks guarded words b hb l hl
  · simp

theorem nested_sections (words : ∀ w ∈ h.words, IsWord w) : Nested (spaced h.sections) := by
  refine .of_plain fun l hl => ?_
  obtain ⟨b, hb, hl⟩ := List.mem_flatMap.1 hl
  obtain hl | rfl := List.mem_append.1 hl |>.imp_right List.mem_singleton.1
  · exact ((sectionLine_of_mem hb).2 l hl).plain words
  · exact plain_of_directiveName (by decide)

/-- The guard is a group around the sections and around one group on either side of them. -/
theorem nested_blocks (guard : String) (words : ∀ w ∈ h.words, IsWord w) : Nested (spaced (h.blocks guard)) := by
  have blank : Nested [""] := .of_plain (by simpa using plain_of_directiveName (by decide))
  have ends : Closes "#endif" := rfl
  have linkage {l : String} (plain : directiveName l = none) :
      Nested ("#ifdef __cplusplus" :: [l] ++ "#endif" :: [""]) := by
    have inner : Nested [l] := .of_plain (by simpa using plain_of_directiveName (by simp [plain]))
    exact .group ⟨"ifdef", by decide, rfl⟩ ends inner blank
  have opens : Opens ("#ifndef " ++ guard) := by
    refine ⟨"ifndef", by decide, ?_⟩
    rw [directiveName, String.toList_append]
    rfl
  have define : directiveName ("#define " ++ guard) = some "define" := by
    rw [directiveName, String.toList_append]
    rfl
  have start : Nested ["#define " ++ guard, ""] :=
    .line (plain_of_directiveName (by simp [define])) blank
  have opening := linkage (l := "extern \"C\" \x7b") rfl
  have closing := linkage (l := "\x7d") rfl
  have whole := Nested.group opens ends (((start.append opening).append (nested_sections words)).append closing) blank
  simpa [blocks, spaced] using whole

theorem last_joined_blocks (guard : String) (h : Header) : (joined (h.blocks guard)).toList.getLast? = some 'f' := by
  have split : h.blocks guard = ([["#ifndef " ++ guard, "#define " ++ guard],
      ["#ifdef __cplusplus", "extern \"C\" \x7b", "#endif"]] ++ h.sections ++ [["#ifdef __cplusplus", "\x7d", "#endif"]])
        ++ [["#endif"]] := by
    simp [blocks]
  rw [split, joined_append_singleton (by simp)]
  simp

/-- The text of a header is its blocks, joined by one empty line each, with one line feed behind them, and there is none
just if a number in it has too many digits. If all words are identifiers, no block has an empty line, no two empty lines
follow each other and all conditional groups are nested. -/
theorem text_layout [Memory] (guard guardPrefix environment : Option String) (h : Header) :
    let name := guard.getD (Guard.token h.target guardPrefix environment)
    let written := (Writer.c guard guardPrefix).write environment h
    (∀ text, written = .ok text ↔
        (∀ n ∈ h.values, digitCount n ≤ maxDigits) ∧ joined (h.blocks name) ++ "\n" = text) ∧
      (∀ e, written = .error e ↔ (∃ n ∈ h.values, maxDigits < digitCount n) ∧ e = .oversized) ∧
      (joined (h.blocks name)).toList.getLast? ≠ some '\n' ∧
      ∀ text, written = .ok text → (∀ w ∈ name :: h.words, isIdentifier w = true) →
        (∀ b ∈ h.blocks name, linesOf ("\n".intercalate b) = b ∧ "" ∉ b) ∧
          EmptyLinesApart (linesOf text) ∧ Nested (linesOf text) := by
  intro name written
  have filled := blocks_filled name h
  have joins : h.text name = joined (h.blocks name) ++ "\n" := by
    rw [text_eq_intercalate, intercalate_spaced (by simp [blocks]) fun b hb => (filled b hb).1]
  refine ⟨fun text => ?_, fun e => Writer.write_c_error, ?_, fun text ok identifiers => ?_⟩
  · rw [Writer.write_c_ok, ← joins]
  · rw [last_joined_blocks]
    decide
  · obtain ⟨guarded, named⟩ := List.forall_mem_cons.1 identifiers
    have guarded := isWord_of_isIdentifier guarded
    have words : ∀ w ∈ h.words, IsWord w := fun w hw => isWord_of_isIdentifier (named w hw)
    rw [← (Writer.write_c_ok.1 ok).2, linesOf_text guarded words]
    refine ⟨fun b hb => ⟨?_, (filled b hb).2⟩, emptyLinesApart_spaced filled, nested_blocks name words⟩
    exact linesOf_intercalate (filled b hb).1 (newline_not_mem_blocks guarded words b hb)

/-- A header with something in every section, and several qualifiers at one level. -/
def sample : Header :=
  ⟨"a.h", [⟨"Handle", .pointer (.base ⟨"Engine", ["const", "volatile"], true⟩) ["restrict", "const"], none⟩],
    [⟨"Mode", [⟨"Off", some (-1)⟩, ⟨"On", none⟩], none⟩],
    [⟨"Node", [⟨"next", .pointer (.ofName "Node") []⟩, ⟨"size", .ofName "int32_t"⟩], none⟩],
    [⟨"start", .ofName "void", [⟨"e", .ofName "Handle"⟩], none⟩, ⟨"stop", .ofName "void", [], none⟩]⟩

theorem text_layout_sample :
    (∀ w ∈ "A_H" :: sample.words, isIdentifier w = true) ∧
      ∃ text, (Writer.c (some "A_H") none).write none sample = .ok text ∧ EmptyLinesApart (linesOf text) ∧
        Nested (linesOf text) := by
  have identifiers : ∀ w ∈ "A_H" :: sample.words, isIdentifier w = true := by decide
  obtain ⟨ok, -, -, lines⟩ := text_layout (some "A_H") none none sample
  have written := (ok _).2 ⟨by decide, rfl⟩
  exact ⟨identifiers, _, written, (lines _ written identifiers).2⟩

/-- A number with one digit too many keeps a header from its text, and a line feed at the end of a guard makes two empty
lines of the one behind the first block. -/
theorem not_text_layout :
    (¬ ∃ text, (Writer.c (some "NUMBER_H") none).write none (ofNumber (Nat.pow 10 maxDigits)) = .ok text) ∧
      ∃ text, (Writer.c (some "A_H\n") none).write none ⟨"a.h", [], [], [], []⟩ = .ok text ∧
        ¬ EmptyLinesApart (linesOf text) := by
  constructor
  · rintro ⟨text, h⟩
    have short : digitCount (Nat.pow 10 maxDigits) ≤ maxDigits := (Writer.write_c_ok.1 h).1 _ (mem_values_ofNumber _)
    exact Nat.not_le.2 (lt_digitCount_power (by decide)) short
  · refine ⟨_, Writer.write_c_ok.2 ⟨by simp [values], rfl⟩, ?_⟩
    decide +kernel

end Header

end CInterface
