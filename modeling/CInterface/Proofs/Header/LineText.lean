import CInterface.Proofs.Header.TypeText
import CInterface.Text.DecimalDigit

/-!
# What the text of a line says

Every line of the sections of a header shows what it is by how it ends and begins, and then what it says: its names
and types, but for what is known of the layout of types.
-/

namespace CInterface

open Text

theorem map_eq_of_map_eq {α β γ : Type} {f : α → β} {g : α → γ} {xs ys : List α}
    (h : ∀ x ∈ xs, ∀ y ∈ ys, f x = f y → g x = g y) (same : xs.map f = ys.map f) : xs.map g = ys.map g := by
  induction xs generalizing ys with
  | nil => cases ys <;> simp_all
  | cons x xs ih =>
    cases ys with
    | nil => cases same
    | cons y ys =>
      obtain ⟨heads, tails⟩ := List.cons.inj same
      have rest := ih (fun a ha b hb => h a (List.mem_cons_of_mem _ ha) b (List.mem_cons_of_mem _ hb)) tails
      rw [List.map_cons, List.map_cons, h x List.mem_cons_self y List.mem_cons_self heads, rest]

/-- What a line of a header is, and what it says. Forward declarations are typedefs with the qualifier of structs. -/
inductive Shape where
  | mark (text : String)
  | typedef (d : Slot)
  | opening (keyword name : String)
  | enumerator (v : Enumerator)
  | field (f : Slot)
  | closing (name : String)
  | prototype (result : Slot) (parameters : List Slot)

/-- Kinds of lines, by which they can be told apart. -/
inductive LineKind where
  | mark
  | typedef
  | opening
  | enumerator
  | field
  | closing
  | prototype

/-- The kind of a line, as its characters show it. -/
def LineKind.ofText (cs : List Char) : LineKind :=
  match cs.getLast? with
  | some ',' => .enumerator
  | some '{' => .opening
  | some ';' =>
    if '(' ∈ cs then .prototype
    else
      match cs.head? with
      | some '}' => .closing
      | some ' ' => .field
      | _ => .typedef
  | _ => .mark

/-- The text of the parameters of a prototype. -/
def parametersText (parameters : List Slot) : String :=
  if parameters.isEmpty then "void" else ", ".intercalate (parameters.map Slot.text)

namespace Shape

def text : Shape → String
  | .mark s => s
  | .typedef d => "typedef " ++ d.text ++ ";"
  | .opening keyword name => "typedef " ++ keyword ++ " " ++ name ++ " \x7b"
  | .enumerator v => v.line
  | .field f => indent ++ f.text ++ ";"
  | .closing name => "\x7d " ++ name ++ ";"
  | .prototype result parameters => result.text ++ "(" ++ parametersText parameters ++ ");"

def kind : Shape → LineKind
  | .mark _ => .mark
  | .typedef _ => .typedef
  | .opening _ _ => .opening
  | .enumerator _ => .enumerator
  | .field _ => .field
  | .closing _ => .closing
  | .prototype _ _ => .prototype

/-- All names are words, and a mark does not end like another line. -/
def Worded : Shape → Prop
  | .mark s => '\n' ∉ s.toList ∧ ∀ c ∈ s.toList.getLast?, c ≠ ',' ∧ c ≠ '{' ∧ c ≠ ';'
  | .typedef d => d.Worded
  | .opening keyword name => IsWord keyword ∧ IsWord name
  | .enumerator v => IsWord v.name
  | .field f => f.Worded
  | .closing name => IsWord name
  | .prototype result parameters => result.Worded ∧ ∀ p ∈ parameters, p.Worded

/-- A line without what is known of the layout of its types. -/
def bare : Shape → Shape
  | .typedef d => .typedef d.bare
  | .field f => .field f.bare
  | .prototype result parameters => .prototype result.bare (parameters.map Slot.bare)
  | .mark s => .mark s
  | .opening keyword name => .opening keyword name
  | .enumerator v => .enumerator v
  | .closing name => .closing name

end Shape

theorem toList_enumeratorLine (v : Enumerator) :
    ∃ body, v.line.toList = indent.toList ++ v.name.toList ++ body ++ [','] ∧
      body = match v.value with
        | some n => ' ' :: '=' :: ' ' :: (toString n).toList
        | none => [] := by
  refine ⟨_, ?_, rfl⟩
  rw [Enumerator.line]
  cases v.value <;> simp

namespace Shape

theorem kind_text {s : Shape} (h : s.Worded) : LineKind.ofText s.text.toList = s.kind := by
  cases s with
  | mark s =>
    obtain ⟨-, ends⟩ := h
    rw [LineKind.ofText, text, kind]
    split
    · next last => simp [last] at ends
    · next last => simp [last] at ends
    · next last => simp [last] at ends
    · rfl
  | typedef d =>
    have plain : '(' ∉ d.text.toList := (Slot.Worded.within_text h).not_mem (by decide) (by decide)
    simp [text, kind, LineKind.ofText, List.getLast?_cons, plain]
  | opening keyword name => simp [text, kind, LineKind.ofText, List.getLast?_cons]
  | enumerator v =>
    obtain ⟨body, line, -⟩ := toList_enumeratorLine v
    simp [text, kind, LineKind.ofText, line]
  | field f =>
    have plain : '(' ∉ f.text.toList := (Slot.Worded.within_text h).not_mem (by decide) (by decide)
    simp [text, kind, LineKind.ofText, indent, List.getLast?_cons, plain]
  | closing name =>
    have plain : '(' ∉ name.toList := IsWord.not_mem h (by decide)
    simp [text, kind, LineKind.ofText, List.getLast?_cons, plain]
  | prototype result parameters => simp [text, kind, LineKind.ofText, List.getLast?_cons]

theorem parametersText_inj {ps qs : List Slot} (hp : ∀ p ∈ ps, p.Worded) (hq : ∀ q ∈ qs, q.Worded)
    (same : parametersText ps = parametersText qs) : ps.map Slot.bare = qs.map Slot.bare := by
  have void (s : Slot) (rest : List Slot) : ", ".intercalate ((s :: rest).map Slot.text) ≠ "void" := by
    intro h
    have space : ' ' ∈ "void".toList := by
      rw [← h]
      cases rest <;> simp [Slot.text, String.intercalate_cons_cons]
    revert space
    decide
  cases ps with
  | nil =>
    cases qs with
    | nil => rfl
    | cons q qs => exact absurd same.symm (void q qs)
  | cons p ps =>
    cases qs with
    | nil => exact absurd same (void p ps)
    | cons q qs =>
      have parts := congrArg String.toList same
      simp only [parametersText, List.isEmpty_cons, Bool.false_eq_true, if_false, String.toList_intercalate] at parts
      have comma (ss : List Slot) (worded : ∀ s ∈ ss, s.Worded) :
          ∀ cs ∈ (ss.map Slot.text).map String.toList, ',' ∉ cs := by
        simp only [List.map_map, List.mem_map, Function.comp_apply, forall_exists_index, and_imp,
          forall_apply_eq_imp_iff₂]
        exact fun s hs => (worded s hs).within_text.not_mem (by decide) (by decide)
      have texts := intercalate_inj (comma _ hp) (comma _ hq) (by simp) (by simp) parts
      have texts := List.map_injective_iff.2 (fun _ _ => String.toList_injective) texts
      refine map_eq_of_map_eq (fun x hx y hy same => ?_) texts
      exact Slot.bare_eq_of_text (hp x hx) (hq y hy) same

theorem prototype_inj {result result' : Slot} {parameters parameters' : List Slot}
    (h : (prototype result parameters).Worded) (h' : (prototype result' parameters').Worded)
    (same : (prototype result parameters).text = (prototype result' parameters').text) :
    result.bare = result'.bare ∧ parameters.map Slot.bare = parameters'.map Slot.bare := by
  have parts : result.text.toList ++ '(' :: ((parametersText parameters).toList ++ [')', ';'])
      = result'.text.toList ++ '(' :: ((parametersText parameters').toList ++ [')', ';']) := by
    simpa [text, ← String.toList_inj] using same
  obtain ⟨results, rest⟩ := split_first (h.1.within_text.not_mem (by decide) (by decide))
    (h'.1.within_text.not_mem (by decide) (by decide)) parts
  exact ⟨Slot.bare_eq_of_text h.1 h'.1 (String.toList_inj.1 results),
    parametersText_inj h.2 h'.2 (String.toList_inj.1 (List.append_cancel_right rest))⟩

/-- Only behind the name of a value with a number a space follows. -/
theorem line_none_ne_line_some {name name' : String} (h : IsWord name) (n : Int) :
    Enumerator.line ⟨name, none⟩ ≠ Enumerator.line ⟨name', some n⟩ := by
  intro same
  have parts : name.toList ++ [','] = name'.toList ++ ' ' :: ('=' :: ' ' :: ((toString n).toList ++ [','])) := by
    simpa [Enumerator.line, ← String.toList_inj] using same
  have space : ' ' ∈ name.toList ++ [','] := by simp [parts]
  exact h.not_mem (c := ' ') (by decide) (by simpa using space)

theorem enumerator_inj {v v' : Enumerator} (h : IsWord v.name) (h' : IsWord v'.name) (same : v.line = v'.line) :
    v = v' := by
  obtain ⟨name, _ | n⟩ := v <;> obtain ⟨name', _ | n'⟩ := v'
  · have names : name = name' := by simpa [Enumerator.line, ← String.toList_inj] using same
    rw [names]
  · exact absurd same (line_none_ne_line_some h n')
  · exact absurd same.symm (line_none_ne_line_some h' n)
  · have parts : name.toList ++ ' ' :: ('=' :: ' ' :: ((toString n).toList ++ [',']))
        = name'.toList ++ ' ' :: ('=' :: ' ' :: ((toString n').toList ++ [','])) := by
      simpa [Enumerator.line, ← String.toList_inj] using same
    obtain ⟨names, rest⟩ := split_first (h.not_mem (by decide)) (h'.not_mem (by decide)) parts
    have names : name = name' := String.toList_inj.1 names
    have numbers : toString n = toString n' := by simpa [String.toList_inj] using rest
    rw [names, Text.repr_inj numbers]

/-- The text of a line tells what the line is and all that it says. -/
theorem bare_eq_of_text {s s' : Shape} (h : s.Worded) (h' : s'.Worded) (same : s.text = s'.text) :
    s.bare = s'.bare := by
  -- lines of two kinds have two texts, so that all cases but those of one kind fall away
  have kinds : s.kind = s'.kind := by rw [← kind_text h, same, kind_text h']
  cases s with
  | mark s =>
    cases s' with
    | mark s' => exact congrArg Shape.mark same
    | _ => cases kinds
  | typedef d =>
    cases s' with
    | typedef d' =>
      have slots : d.text = d'.text := by simpa [text, ← String.toList_inj] using same
      rw [bare, bare, Slot.bare_eq_of_text h h' slots]
    | _ => cases kinds
  | opening keyword name =>
    cases s' with
    | opening keyword' name' =>
      have words : keyword.toList ++ ' ' :: (name.toList ++ [' ', '{'])
          = keyword'.toList ++ ' ' :: (name'.toList ++ [' ', '{']) := by
        simpa [text, ← String.toList_inj] using same
      obtain ⟨keywords, names⟩ := split_first (h.1.not_mem (by decide)) (h'.1.not_mem (by decide)) words
      rw [String.toList_inj.1 keywords, String.toList_inj.1 (List.append_cancel_right names)]
    | _ => cases kinds
  | enumerator v =>
    cases s' with
    | enumerator v' => rw [enumerator_inj h h' same]
    | _ => cases kinds
  | field f =>
    cases s' with
    | field f' =>
      have slots : f.text = f'.text := by simpa [text, ← String.toList_inj] using same
      rw [bare, bare, Slot.bare_eq_of_text h h' slots]
    | _ => cases kinds
  | closing name =>
    cases s' with
    | closing name' =>
      have names : name = name' := by simpa [text, ← String.toList_inj] using same
      rw [names]
    | _ => cases kinds
  | prototype result parameters =>
    cases s' with
    | prototype result' parameters' =>
      obtain ⟨results, slots⟩ := prototype_inj h h' same
      rw [bare, bare, results, slots]
    | _ => cases kinds

theorem newline_not_mem {s : Shape} (h : s.Worded) : '\n' ∉ s.text.toList := by
  have word {name : String} (h : IsWord name) : '\n' ∉ name.toList := h.not_mem (by decide)
  have slot {d : Slot} (h : d.Worded) : '\n' ∉ d.text.toList := h.within_text.not_mem (by decide) (by decide)
  cases s with
  | mark s => exact h.1
  | typedef d => simp [text, slot h]
  | opening keyword name => simp [text, word h.1, word h.2]
  | enumerator v => exact (Enumerator.within_line h).not_mem (by decide) (by decide)
  | field f => simp [text, indent, slot h]
  | closing name => simp [text, word h]
  | prototype result parameters =>
    have plain : '\n' ∉ (parametersText parameters).toList :=
      (within_parameters fun p hp => (h.2 p hp).isWord).not_mem (by decide) (by decide)
    simp [text, slot h.1, plain]

end Shape

end CInterface
