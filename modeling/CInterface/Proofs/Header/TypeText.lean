import CInterface.Proofs.Header.Characters
import Mathlib.Data.List.Basic

/-!
# What the text of a type says

A text that is put together around a character that some of its parts do not hold can be taken apart again. So the
text of a type under a name tells the type and the name, as long as the names are words and no level has more than
one qualifier.
-/

namespace CInterface

section Separators

variable {α : Type} {c : α} {xs ys us vs : List α}

theorem split_first (hx : c ∉ xs) (hy : c ∉ ys) (h : xs ++ c :: us = ys ++ c :: vs) : xs = ys ∧ us = vs := by
  induction xs generalizing ys with
  | nil =>
    cases ys with
    | nil => exact ⟨rfl, (List.cons.inj h).2⟩
    | cons y ys => exact absurd (List.mem_cons.2 (.inl (List.cons.inj h).1)) hy
  | cons x xs ih =>
    cases ys with
    | nil => exact absurd (List.mem_cons.2 (.inl (List.cons.inj h).1.symm)) hx
    | cons y ys =>
      obtain ⟨rfl, tails⟩ := List.cons.inj h
      obtain ⟨rfl, rfl⟩ := ih (fun hc => hx (List.mem_cons_of_mem _ hc)) (fun hc => hy (List.mem_cons_of_mem _ hc))
        tails
      exact ⟨rfl, rfl⟩

theorem split_last (hu : c ∉ us) (hv : c ∉ vs) (h : xs ++ c :: us = ys ++ c :: vs) : xs = ys ∧ us = vs := by
  have reversed := congrArg List.reverse h
  simp only [List.reverse_append, List.reverse_cons, List.append_assoc, List.singleton_append] at reversed
  obtain ⟨ends, starts⟩ := split_first (by simpa using hu) (by simpa using hv) reversed
  exact ⟨List.reverse_inj.1 starts, List.reverse_inj.1 ends⟩

/-- Parts that do not hold the first character of what stands between them can be told apart. -/
theorem intercalate_inj {sep : List α} {xss yss : List (List α)} (hx : ∀ xs ∈ xss, c ∉ xs) (hy : ∀ ys ∈ yss, c ∉ ys)
    (hxn : xss ≠ []) (hyn : yss ≠ []) (h : (c :: sep).intercalate xss = (c :: sep).intercalate yss) : xss = yss := by
  induction xss generalizing yss with
  | nil => contradiction
  | cons xs xss ih =>
    cases yss with
    | nil => contradiction
    | cons ys yss =>
      obtain ⟨hxs, hxss⟩ := List.forall_mem_cons.1 hx
      obtain ⟨hys, hyss⟩ := List.forall_mem_cons.1 hy
      rcases xss with - | ⟨xs', xss⟩ <;> rcases yss with - | ⟨ys', yss⟩
      · simpa using h
      · rw [List.intercalate_singleton, List.intercalate_cons_cons] at h
        exact absurd (by simp [h]) hxs
      · rw [List.intercalate_singleton, List.intercalate_cons_cons] at h
        exact absurd (by simp [← h]) hys
      · rw [List.intercalate_cons_cons, List.intercalate_cons_cons, List.append_assoc, List.append_assoc] at h
        obtain ⟨rfl, rest⟩ := split_first hxs hys h
        have tails : xs' :: xss = ys' :: yss := ih hxss hyss (by simp) (by simp) (List.append_cancel_left rest)
        rw [tails]

end Separators

namespace Text

/-- No qualifier, or one that is a word. -/
def Qualified (qualifiers : List String) : Prop := qualifiers = [] ∨ ∃ q, qualifiers = [q] ∧ IsWord q

/-- A text without the characters that stand between the parts of a type. -/
def IsSolid (s : String) : Prop := ' ' ∉ s.toList ∧ '*' ∉ s.toList

theorem IsWord.isSolid {s : String} (h : IsWord s) : IsSolid s := ⟨h.not_mem (by decide), h.not_mem (by decide)⟩

/-- No qualifier, or one that is solid. -/
def Single (qualifiers : List String) : Prop := qualifiers = [] ∨ ∃ q, qualifiers = [q] ∧ IsSolid q

theorem Qualified.single {qualifiers : List String} (h : Qualified qualifiers) : Single qualifiers :=
  h.imp_right fun ⟨q, one, word⟩ => ⟨q, one, word.isSolid⟩

end Text

open Text

namespace CType

/-- A type whose names and qualifiers are words, with at most one qualifier at every level. -/
def Worded : CType → Prop
  | .base b => IsWord b.name ∧ Qualified b.qualifiers
  | .pointer pointee qualifiers => pointee.Worded ∧ Qualified qualifiers

/-- The qualifiers of all levels of a type, the outermost level first. -/
def qualifierLists : CType → List (List String)
  | .base b => [b.qualifiers]
  | .pointer pointee qualifiers => qualifiers :: pointee.qualifierLists

theorem worded_of_const {t : CType} (named : IsWord t.baseType.name)
    (h : ∀ qualifiers ∈ t.qualifierLists, qualifiers = [] ∨ qualifiers = ["const"]) : t.Worded := by
  have qualified {qualifiers : List String} (hq : qualifiers = [] ∨ qualifiers = ["const"]) : Qualified qualifiers :=
    hq.imp_right fun const => ⟨"const", const, isWord_of_isIdentifier (by decide)⟩
  induction t with
  | base b => exact ⟨named, qualified (h _ List.mem_cons_self)⟩
  | pointer pointee qualifiers ih =>
    exact ⟨ih named fun qs hqs => h qs (List.mem_cons_of_mem _ hqs), qualified (h _ List.mem_cons_self)⟩

/-- A type that can be read off its text: its name is solid, and no level has more than one qualifier. -/
structure Legible (t : CType) : Prop where
  name : IsSolid t.baseType.name
  qualifiers : ∀ qualifiers ∈ t.qualifierLists, Single qualifiers

theorem legible_pointer {pointee : CType} {qualifiers : List String} :
    (pointer pointee qualifiers).Legible ↔ pointee.Legible ∧ Single qualifiers := by
  constructor
  · rintro ⟨name, all⟩
    obtain ⟨own, rest⟩ := List.forall_mem_cons.1 all
    exact ⟨⟨name, rest⟩, own⟩
  · rintro ⟨⟨name, rest⟩, own⟩
    exact ⟨name, List.forall_mem_cons.2 ⟨own, rest⟩⟩

theorem legible_base {b : BaseType} : (base b).Legible ↔ IsSolid b.name ∧ Single b.qualifiers :=
  ⟨fun h => ⟨h.name, h.qualifiers _ List.mem_cons_self⟩, fun h => ⟨h.1, by simpa [qualifierLists] using h.2⟩⟩

theorem Worded.legible {t : CType} (h : t.Worded) : t.Legible := by
  induction t with
  | base b => exact legible_base.2 ⟨h.1.isSolid, h.2.single⟩
  | pointer pointee qualifiers ih => exact legible_pointer.2 ⟨ih h.1, h.2.single⟩

/-- A type without what is known of its layout. -/
def bare : CType → CType
  | .base b => .base { b with isIncomplete := false }
  | .pointer pointee qualifiers => .pointer pointee.bare qualifiers

/-- What stands before the name of a base type. -/
def leading : List String → List Char
  | [] => []
  | q :: _ => q.toList ++ [' ']

/-- What stands behind the star of a pointer. -/
def trailing : List String → List Char
  | [] => []
  | q :: _ => ' ' :: q.toList

theorem toList_text_base {b : BaseType} (h : Single b.qualifiers) :
    (base b).text.toList = leading b.qualifiers ++ b.name.toList := by
  obtain ⟨name, qualifiers, isIncomplete⟩ := b
  obtain rfl | ⟨q, rfl, -⟩ := h <;> simp [text, BaseType.text, leading]

theorem toList_text_pointer {pointee : CType} {qualifiers : List String} (h : Single qualifiers) :
    (pointer pointee qualifiers).text.toList = pointee.text.toList ++ '*' :: trailing qualifiers := by
  obtain rfl | ⟨q, rfl, -⟩ := h <;> simp [text, star, trailing]

theorem not_mem_trailing {qualifiers : List String} (h : Single qualifiers) : '*' ∉ trailing qualifiers := by
  obtain rfl | ⟨q, rfl, solid⟩ := h
  · simp [trailing]
  · simpa [trailing] using solid.2

theorem trailing_inj {qs rs : List String} (hq : Single qs) (hr : Single rs)
    (h : trailing qs = trailing rs) : qs = rs := by
  obtain rfl | ⟨q, rfl, -⟩ := hq <;> obtain rfl | ⟨r, rfl, -⟩ := hr
  · rfl
  · simp [trailing] at h
  · simp [trailing] at h
  · simpa [trailing, String.toList_inj] using h

theorem Worded.isWord {t : CType} (h : t.Worded) : ∀ w ∈ t.words, IsWord w := by
  have all {qualifiers : List String} (h : Qualified qualifiers) : ∀ q ∈ qualifiers, IsWord q := by
    obtain rfl | ⟨q, rfl, word⟩ := h
    · nofun
    · simpa using word
  induction t with
  | base b => exact List.forall_mem_cons.2 ⟨h.1, all h.2⟩
  | pointer pointee qualifiers ih => exact List.forall_mem_append.2 ⟨all h.2, ih h.1⟩

theorem star_not_mem_base {b : BaseType} (h : (base b).Legible) : '*' ∉ (base b).text.toList := by
  obtain ⟨named, single⟩ := legible_base.1 h
  rw [toList_text_base single]
  obtain none | ⟨q, one, solid⟩ := single
  · simpa [none, leading] using named.2
  · simpa [one, leading] using ⟨solid.2, named.2⟩

theorem bare_base_eq {b b' : BaseType} (h : (base b).Legible) (h' : (base b').Legible)
    (same : (base b).text = (base b').text) : (base b).bare = (base b').bare := by
  obtain ⟨named, single⟩ := legible_base.1 h
  obtain ⟨named', single'⟩ := legible_base.1 h'
  have same := congrArg String.toList same
  rw [toList_text_base single, toList_text_base single'] at same
  obtain ⟨name, qualifiers, isIncomplete⟩ := b
  obtain ⟨name', qualifiers', isIncomplete'⟩ := b'
  obtain rfl | ⟨q, rfl, solid⟩ := single <;> obtain rfl | ⟨q', rfl, solid'⟩ := single' <;>
    simp only [leading, List.nil_append, List.append_assoc, List.singleton_append] at same
  · rw [bare, bare, String.toList_inj.1 same]
  · exact absurd (by simp [same]) named.1
  · exact absurd (by simp [← same]) named'.1
  · obtain ⟨first, last⟩ := split_first solid.1 solid'.1 same
    rw [bare, bare, String.toList_inj.1 first, String.toList_inj.1 last]

/-- The text of a type tells all of it but what is known of its layout. -/
theorem bare_eq_of_text {t t' : CType} (h : t.Legible) (h' : t'.Legible) (same : t.text = t'.text) :
    t.bare = t'.bare := by
  induction t generalizing t' with
  | base b =>
    cases t' with
    | base b' => exact bare_base_eq h h' same
    | pointer pointee' qualifiers' =>
      have pointed := star_not_mem_base h
      rw [same, toList_text_pointer (legible_pointer.1 h').2] at pointed
      simp at pointed
  | pointer pointee qualifiers ih =>
    obtain ⟨below, single⟩ := legible_pointer.1 h
    cases t' with
    | base b' =>
      have pointed := star_not_mem_base h'
      rw [← same, toList_text_pointer single] at pointed
      simp at pointed
    | pointer pointee' qualifiers' =>
      obtain ⟨below', single'⟩ := legible_pointer.1 h'
      have same := congrArg String.toList same
      rw [toList_text_pointer single, toList_text_pointer single'] at same
      obtain ⟨pointees, ends⟩ := split_last (not_mem_trailing single) (not_mem_trailing single') same
      rw [bare, bare, ih below below' (String.toList_inj.1 pointees), trailing_inj single single' ends]

end CType

namespace Slot

/-- A name that is a word with a type of words. -/
def Worded (s : Slot) : Prop := IsWord s.name ∧ s.type.Worded

def bare (s : Slot) : Slot := ⟨s.name, s.type.bare⟩

theorem toList_text (s : Slot) : s.text.toList = s.type.text.toList ++ ' ' :: s.name.toList := by
  simp [text]

theorem Worded.isWord {s : Slot} (h : s.Worded) : ∀ w ∈ s.words, IsWord w := List.forall_mem_cons.2 ⟨h.1, h.2.isWord⟩

theorem Worded.within_text {s : Slot} (h : s.Worded) : Within typeMarks s.text := Slot.within_text h.isWord

theorem bare_eq_of_text {s s' : Slot} (h : s.Worded) (h' : s'.Worded) (same : s.text = s'.text) :
    s.bare = s'.bare := by
  have same := congrArg String.toList same
  rw [toList_text, toList_text] at same
  obtain ⟨types, names⟩ := split_last (h.1.not_mem (by decide)) (h'.1.not_mem (by decide)) same
  rw [bare, bare, CType.bare_eq_of_text h.2.legible h'.2.legible (String.toList_inj.1 types), String.toList_inj.1 names]

end Slot

end CInterface
