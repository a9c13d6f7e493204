import CInterface.Proofs.Json.Lexemes
import CInterface.Text.DecimalDigit
import Mathlib.Data.List.Nodup

/-!
# Values read back

The text of a value is read back as that value, on one line or on lines indented by blanks, as long as the members
of its objects have distinct names and its whole numbers are not too long. A value is read in the state in which a
value may come next, whatever is still open, and what stands behind it is read after it.
-/

namespace CInterface.Json

open Decimal (digitCount maxDigits)

/-- A value without numbers of double precision, in which no object has two members of one name. -/
inductive Plain : Value → Prop
  | null : Plain .null
  | bool (b : Bool) : Plain (.bool b)
  | int (n : Int) : Plain (.int n)
  | string (s : String) : Plain (.string s)
  | array {items : List Value} (h : ∀ v ∈ items, Plain v) : Plain (.array items)
  | object {members : Members} (distinct : (members.map Prod.fst).Nodup) (h : ∀ m ∈ members, Plain m.2) :
      Plain (.object members)

/-- A style that puts nothing but blanks between lexemes. -/
def Style.Blank : Style → Prop
  | .compact => True
  | .indented unit => ∀ c ∈ unit.toList, c = ' '

section Running

theorem run_space {state : State} {c : Char} (blank : isSpace c = true) (rest : List Char) :
    run state (c :: rest) = run state rest := by
  rw [run, if_pos blank]

theorem run_spaces {state : State} {blanks : List Char} (h : ∀ c ∈ blanks, isSpace c = true) (rest : List Char) :
    run state (blanks ++ rest) = run state rest := by
  induction blanks with
  | nil => rfl
  | cons c blanks ih =>
    obtain ⟨head, tail⟩ := List.forall_mem_cons.1 h
    rw [List.cons_append, run_space head, ih tail]

theorem run_lexeme {state next : State} {c : Char} {rest after : List Char} {lexeme : Lexeme}
    (solid : isSpace c = false) (read : Lexeme.read c rest = (lexeme, after))
    (step : state.step (c :: rest) lexeme = .ok next) : run state (c :: rest) = run next after := by
  rw [run, if_neg (by rw [solid]; decide), read, step]
  rfl

/-- A mark is a lexeme of its own. -/
theorem run_mark {state next : State} {c : Char} {rest : List Char} {lexeme : Lexeme} (mark : mark? c = some lexeme)
    (solid : isSpace c = false) (step : state.step (c :: rest) lexeme = .ok next) :
    run state (c :: rest) = run next rest := by
  refine run_lexeme solid ?_ step
  rw [Lexeme.read, mark]

end Running

theorem read_true (rest : List Char) : Lexeme.read 't' ('r' :: 'u' :: 'e' :: rest) = (.scalar (.bool true), rest) :=
  rfl

theorem read_false (rest : List Char) :
    Lexeme.read 'f' ('a' :: 'l' :: 's' :: 'e' :: rest) = (.scalar (.bool false), rest) :=
  rfl

theorem read_null (rest : List Char) : Lexeme.read 'n' ('u' :: 'l' :: 'l' :: rest) = (.scalar .null, rest) :=
  rfl

/-- Only a closing bracket is read as one. -/
theorem eq_of_read_closeArray {c : Char} {rest : List Char} (h : (Lexeme.read c rest).1 = .closeArray) : c = ']' := by
  have number (n : Numeral) : n.lexeme ≠ .closeArray := by
    rw [Numeral.lexeme]
    split
    · split <;> simp
    · simp
  rw [Lexeme.read] at h
  split at h
  · next mark found =>
    rw [mark?.eq_def] at found
    split at found <;> cases found <;> first | rfl | cases h
  · split at h
    · split at h <;> cases h
    · split at h
      · cases h
      · split at h
        · exact absurd h (number _)
        · cases h

/-- Where an item may come, a value may come that is in an array. -/
theorem run_item {stack : List Frame} {c : Char} (solid : isSpace c = false) (more : c ≠ ']') (rest : List Char) :
    run ⟨.item, stack⟩ (c :: rest) = run ⟨.value, .array [] :: stack⟩ (c :: rest) := by
  have steps (lexeme : Lexeme) (other : lexeme ≠ .closeArray) :
      State.step (c :: rest) ⟨.item, stack⟩ lexeme = State.step (c :: rest) ⟨.value, .array [] :: stack⟩ lexeme := by
    cases lexeme <;> first | rfl | contradiction
  have open' : ¬ isSpace c = true := by rw [solid]; decide
  rw [run, run, if_neg open', if_neg open', steps _ fun h => more (eq_of_read_closeArray h)]

section Layout

variable {style : Style} (blank : style.Blank)

include blank

theorem lineBreak_spaces (depth : Nat) : ∀ c ∈ (style.lineBreak depth).toList, isSpace c = true := by
  cases style with
  | compact => simp [Style.lineBreak]
  | indented unit =>
    have units : ∀ c ∈ (String.join (List.replicate depth unit)).toList, c = ' ' := by
      induction depth with
      | zero => simp
      | succ depth ih =>
        intro c hc
        rw [List.replicate_succ, String.join_cons, String.toList_append, List.mem_append] at hc
        exact hc.elim (blank c) (ih c)
    intro c hc
    simp only [Style.lineBreak, String.toList_append, List.mem_append] at hc
    obtain hc | hc := hc
    · obtain rfl : c = '\n' := by simpa using hc
      rfl
    · rw [units c hc]
      rfl

theorem separator_spaces (depth : Nat) :
    ∃ blanks, (style.separator depth).toList = ',' :: blanks ∧ ∀ c ∈ blanks, isSpace c = true := by
  cases style with
  | compact => exact ⟨[' '], by simp [Style.separator], List.forall_mem_singleton.2 rfl⟩
  | indented unit =>
    exact ⟨(Style.lineBreak (.indented unit) depth).toList, by simp [Style.separator], lineBreak_spaces blank depth⟩

end Layout

theorem delimited_cons {c : Char} (h : c.isDigit = false ∧ c ≠ '.' ∧ c ≠ 'e' ∧ c ≠ 'E') (rest : List Char) :
    Delimited (c :: rest) := by
  intro d hd
  cases hd
  exact h

/-- Blanks before a delimiter delimit, too. -/
theorem delimited_spaces {blanks rest : List Char} (spaces : ∀ c ∈ blanks, isSpace c = true) (h : Delimited rest) :
    Delimited (blanks ++ rest) := by
  cases blanks with
  | nil => exact h
  | cons c blanks =>
    have space := spaces c List.mem_cons_self
    refine delimited_cons ?_ _
    simp only [isSpace, Bool.or_eq_true, beq_iff_eq] at space
    obtain ((rfl | rfl) | rfl) | rfl := space <;> decide

/-- A value is read wherever a value may come. -/
def Reads (style : Style) (v : Value) : Prop :=
  ∀ depth stack rest, Delimited rest →
    run ⟨.value, stack⟩ ((v.render style depth).toList ++ rest) = run ⟨.after v, stack⟩ rest

/-- The text of a value starts with a character that is neither a blank nor closes an array. -/
def Starts (style : Style) (v : Value) : Prop :=
  ∀ depth, ∃ c inner, (v.render style depth).toList = c :: inner ∧ isSpace c = false ∧ c ≠ ']'

theorem fresh_of_nodup {members : Members} {name : String} {names : List String}
    (distinct : (members.map Prod.fst ++ name :: names).Nodup) : name ∉ members.map Prod.fst := fun hn =>
  (List.nodup_cons.1 (List.nodup_middle.1 distinct)).1 (List.mem_append_left _ hn)

theorem put_fresh {members : Members} {name : String} (fresh : name ∉ members.map Prod.fst) (v : Value) :
    members.put name v = members ++ [(name, v)] := by
  induction members with
  | nil => rfl
  | cons m members ih =>
    simp only [List.map_cons, List.mem_cons, not_or] at fresh
    rw [Members.put, if_neg fun same => fresh.1 same.symm, ih fresh.2, List.cons_append]

/-- A name and its colon. -/
theorem run_name (members : Members) (closable : Bool) (name : String) (stack : List Frame) (rest : List Char) :
    run ⟨.name members closable, stack⟩ ((stringText name).toList ++ (':' :: ' ' :: rest))
      = run ⟨.value, .object members name :: stack⟩ rest := by
  obtain ⟨inner, text, read⟩ := read_stringText name (':' :: ' ' :: rest)
  rw [text, List.cons_append]
  have named : State.step ('"' :: (inner ++ ':' :: ' ' :: rest)) ⟨.name members closable, stack⟩ (.text name)
      = .ok ⟨.colon members name, stack⟩ := rfl
  calc run ⟨.name members closable, stack⟩ ('"' :: (inner ++ ':' :: ' ' :: rest))
      = run ⟨.colon members name, stack⟩ (':' :: ' ' :: rest) := run_lexeme rfl read named
    _ = run ⟨.value, .object members name :: stack⟩ (' ' :: rest) := run_mark rfl rfl rfl
    _ = run ⟨.value, .object members name :: stack⟩ rest := run_space rfl rest

section Containers

variable {style : Style} (blank : style.Blank)

include blank

theorem delimited_items (depth : Nat) (vs : List Value) {rest : List Char} (h : Delimited rest) :
    Delimited ((renderItems style depth vs).toList ++ rest) := by
  cases vs with
  | nil => simpa [renderItems] using h
  | cons v vs =>
    obtain ⟨blanks, text, -⟩ := separator_spaces blank depth
    simp only [renderItems, String.toList_append, text, List.cons_append]
    exact delimited_cons (by decide) _

theorem delimited_members (depth : Nat) (ms : Members) {rest : List Char} (h : Delimited rest) :
    Delimited ((renderMembers style depth ms).toList ++ rest) := by
  cases ms with
  | nil => simpa [renderMembers] using h
  | cons m ms =>
    obtain ⟨blanks, text, -⟩ := separator_spaces blank depth
    simp only [renderMembers, String.toList_append, text, List.cons_append]
    exact delimited_cons (by decide) _

/-- The items after the first one and the end of an array. -/
theorem run_items {vs : List Value} (h : ∀ v ∈ vs, Reads style v) (depth : Nat) (v : Value) (items : List Value)
    (stack : List Frame) {blanks : List Char} (spaces : ∀ c ∈ blanks, isSpace c = true) (rest : List Char) :
    run ⟨.after v, .array items :: stack⟩ ((renderItems style depth vs).toList ++ (blanks ++ ']' :: rest))
      = run ⟨.after (.array ((v :: items).reverse ++ vs)), stack⟩ rest := by
  -- with every item the one before it joins those that have been read, which are kept in reverse
  induction vs generalizing v items with
  | nil =>
    rw [renderItems, String.toList_empty, List.nil_append, run_spaces spaces, List.append_nil]
    exact run_mark rfl rfl rfl
  | cons w vs ih =>
    obtain ⟨head, tail⟩ := List.forall_mem_cons.1 h
    obtain ⟨gap, text, gaps⟩ := separator_spaces blank depth
    have behind : Delimited ((renderItems style depth vs).toList ++ (blanks ++ ']' :: rest)) :=
      delimited_items blank depth vs (delimited_spaces spaces (delimited_cons (by decide) _))
    simp only [renderItems, String.toList_append, text, List.cons_append, List.append_assoc]
    calc run ⟨.after v, .array items :: stack⟩ (',' :: (gap ++ ((w.render style depth).toList
          ++ ((renderItems style depth vs).toList ++ (blanks ++ ']' :: rest)))))
        = run ⟨.value, .array (v :: items) :: stack⟩ (gap ++ ((w.render style depth).toList
            ++ ((renderItems style depth vs).toList ++ (blanks ++ ']' :: rest)))) := run_mark rfl rfl rfl
      _ = run ⟨.after w, .array (v :: items) :: stack⟩
            ((renderItems style depth vs).toList ++ (blanks ++ ']' :: rest)) := by
          rw [run_spaces gaps, head _ _ _ behind]
      _ = run ⟨.after (.array ((w :: v :: items).reverse ++ vs)), stack⟩ rest := ih tail w (v :: items)
      _ = run ⟨.after (.array ((v :: items).reverse ++ w :: vs)), stack⟩ rest := by
          rw [List.reverse_cons, List.append_assoc, List.singleton_append]

/-- The members after the first one and the end of an object. -/
theorem run_members {ms : Members} (h : ∀ m ∈ ms, Reads style m.2) (depth : Nat) (v : Value) (members : Members)
    (name : String) (distinct : (members.map Prod.fst ++ name :: ms.map Prod.fst).Nodup) (stack : List Frame)
    {blanks : List Char} (spaces : ∀ c ∈ blanks, isSpace c = true) (rest : List Char) :
    run ⟨.after v, .object members name :: stack⟩ ((renderMembers style depth ms).toList ++ (blanks ++ '}' :: rest))
      = run ⟨.after (.object (members ++ (name, v) :: ms)), stack⟩ rest := by
  induction ms generalizing v members name with
  | nil =>
    rw [renderMembers, String.toList_empty, List.nil_append, run_spaces spaces, ← put_fresh (fresh_of_nodup distinct)]
    exact run_mark rfl rfl rfl
  | cons m ms ih =>
    obtain ⟨other, w⟩ := m
    obtain ⟨head, tail⟩ := List.forall_mem_cons.1 h
    obtain ⟨gap, text, gaps⟩ := separator_spaces blank depth
    have fresh := fresh_of_nodup distinct
    have distinct : ((members ++ [(name, v)]).map Prod.fst ++ other :: ms.map Prod.fst).Nodup := by
      simpa using distinct
    have behind : Delimited ((renderMembers style depth ms).toList ++ (blanks ++ '}' :: rest)) :=
      delimited_members blank depth ms (delimited_spaces spaces (delimited_cons (by decide) _))
    have colon : ": ".toList = [':', ' '] := by simp
    simp only [renderMembers, String.toList_append, text, colon, List.cons_append, List.nil_append, List.append_assoc]
    calc run ⟨.after v, .object members name :: stack⟩ (',' :: (gap ++ ((stringText other).toList
          ++ (':' :: ' ' :: ((w.render style depth).toList
            ++ ((renderMembers style depth ms).toList ++ (blanks ++ '}' :: rest)))))))
        = run ⟨.name (members ++ [(name, v)]) false, stack⟩ (gap ++ ((stringText other).toList
            ++ (':' :: ' ' :: ((w.render style depth).toList
              ++ ((renderMembers style depth ms).toList ++ (blanks ++ '}' :: rest)))))) := by
          rw [← put_fresh fresh]
          exact run_mark rfl rfl rfl
      _ = run ⟨.after w, .object (members ++ [(name, v)]) other :: stack⟩
            ((renderMembers style depth ms).toList ++ (blanks ++ '}' :: rest)) := by
          rw [run_spaces gaps, run_name, head _ _ _ behind]
      _ = run ⟨.after (.object (members ++ [(name, v)] ++ (other, w) :: ms)), stack⟩ rest := ih tail w _ _ distinct
      _ = run ⟨.after (.object (members ++ (name, v) :: (other, w) :: ms)), stack⟩ rest := by
          rw [List.append_assoc, List.singleton_append]

theorem reads_array {items : List Value} (h : ∀ v ∈ items, Reads style v ∧ Starts style v) :
    Reads style (.array items) := by
  intro depth stack rest _
  cases items with
  | nil =>
    have text : ((Value.array []).render style depth).toList = ['[', ']'] := by simp [Value.render]
    rw [text]
    calc run ⟨.value, stack⟩ ('[' :: ']' :: rest)
        = run ⟨.item, stack⟩ (']' :: rest) := run_mark rfl rfl rfl
      _ = run ⟨.after (.array []), stack⟩ rest := run_mark rfl rfl rfl
  | cons v vs =>
    obtain ⟨⟨reads, starts⟩, others⟩ := List.forall_mem_cons.1 h
    obtain ⟨c, inner, text, solid, more⟩ := starts (depth + 1)
    have behind : Delimited ((renderItems style (depth + 1) vs).toList
        ++ ((style.lineBreak depth).toList ++ ']' :: rest)) :=
      delimited_items blank _ vs (delimited_spaces (lineBreak_spaces blank depth) (delimited_cons (by decide) _))
    have first := reads (depth + 1) (.array [] :: stack) _ behind
    rw [text, List.cons_append] at first
    have whole : ((Value.array (v :: vs)).render style depth).toList ++ rest
        = '[' :: ((style.lineBreak (depth + 1)).toList ++ (c :: (inner ++ ((renderItems style (depth + 1) vs).toList
            ++ ((style.lineBreak depth).toList ++ ']' :: rest))))) := by
      simp [Value.render, text]
    rw [whole]
    calc run ⟨.value, stack⟩ _
        = run ⟨.item, stack⟩ _ := run_mark rfl rfl rfl
      _ = run ⟨.after v, .array [] :: stack⟩ _ := by
          rw [run_spaces (lineBreak_spaces blank _), run_item solid more, first]
      _ = run ⟨.after (.array (v :: vs)), stack⟩ rest :=
          run_items blank (fun w hw => (others w hw).1) _ v [] stack (lineBreak_spaces blank depth) rest

theorem reads_object {members : Members} (distinct : (members.map Prod.fst).Nodup)
    (h : ∀ m ∈ members, Reads style m.2) : Reads style (.object members) := by
  intro depth stack rest _
  cases members with
  | nil =>
    have text : ((Value.object []).render style depth).toList = ['{', '}'] := by simp [Value.render]
    rw [text]
    calc run ⟨.value, stack⟩ ('{' :: '}' :: rest)
        = run ⟨.name [] true, stack⟩ ('}' :: rest) := run_mark rfl rfl rfl
      _ = run ⟨.after (.object []), stack⟩ rest := run_mark rfl rfl rfl
  | cons m ms =>
    obtain ⟨name, v⟩ := m
    obtain ⟨reads, others⟩ := List.forall_mem_cons.1 h
    have behind : Delimited ((renderMembers style (depth + 1) ms).toList
        ++ ((style.lineBreak depth).toList ++ '}' :: rest)) :=
      delimited_members blank _ ms (delimited_spaces (lineBreak_spaces blank depth) (delimited_cons (by decide) _))
    have whole : ((Value.object ((name, v) :: ms)).render style depth).toList ++ rest
        = '{' :: ((style.lineBreak (depth + 1)).toList ++ ((stringText name).toList ++ (':' :: ' ' ::
            ((v.render style (depth + 1)).toList ++ ((renderMembers style (depth + 1) ms).toList
              ++ ((style.lineBreak depth).toList ++ '}' :: rest)))))) := by
      simp [Value.render]
    rw [whole]
    calc run ⟨.value, stack⟩ _
        = run ⟨.name [] true, stack⟩ _ := run_mark rfl rfl rfl
      _ = run ⟨.after v, .object [] name :: stack⟩ _ := by
          rw [run_spaces (lineBreak_spaces blank _), run_name, reads _ _ _ behind]
      _ = run ⟨.after (.object ((name, v) :: ms)), stack⟩ rest :=
          run_members blank others _ v [] name distinct stack (lineBreak_spaces blank depth) rest

omit blank in
/-- A value whose text is one lexeme. -/
theorem reads_lexeme {v : Value} (h : ∀ depth rest, Delimited rest → ∃ c inner lexeme,
    (v.render style depth).toList = c :: inner ∧ isSpace c = false ∧ Lexeme.read c (inner ++ rest) = (lexeme, rest) ∧
      ∀ here stack, State.start here stack lexeme = .ok ⟨.after v, stack⟩) :
    Reads style v ∧ Starts style v := by
  constructor
  · intro depth stack rest delimited
    obtain ⟨c, inner, lexeme, text, solid, read, starts⟩ := h depth rest delimited
    rw [text, List.cons_append]
    exact run_lexeme solid read (starts _ _)
  · intro depth
    obtain ⟨c, inner, lexeme, text, solid, read, starts⟩ := h depth [] nofun
    refine ⟨c, inner, text, solid, ?_⟩
    rintro rfl
    have mark : lexeme = .closeArray := (congrArg Prod.fst read).symm
    have started := starts [] []
    rw [mark] at started
    cases started

theorem Plain.reads_starts {v : Value} (plain : Plain v) (sized : v.Sized) : Reads style v ∧ Starts style v := by
  induction plain with
  | null =>
    exact reads_lexeme fun _ rest _ =>
      ⟨'n', ['u', 'l', 'l'], .scalar .null, by simp [Value.render], rfl, read_null rest, fun _ _ => rfl⟩
  | bool b =>
    cases b with
    | false =>
      exact reads_lexeme fun _ rest _ => ⟨'f', ['a', 'l', 's', 'e'], .scalar (.bool false), by simp [Value.render],
        rfl, read_false rest, fun _ _ => rfl⟩
    | true =>
      exact reads_lexeme fun _ rest _ =>
        ⟨'t', ['r', 'u', 'e'], .scalar (.bool true), by simp [Value.render], rfl, read_true rest, fun _ _ => rfl⟩
  | int n =>
    refine reads_lexeme fun depth rest delimited => ?_
    obtain ⟨c, inner, text, solid, read⟩ := read_int (sized n List.mem_cons_self) delimited
    exact ⟨c, inner, _, by rw [Value.render, text], solid, read, fun _ _ => rfl⟩
  | string s =>
    refine reads_lexeme fun depth rest _ => ?_
    obtain ⟨inner, text, read⟩ := read_stringText s rest
    exact ⟨'"', inner, _, by rw [Value.render, text], rfl, read, fun _ _ => rfl⟩
  | @array items _ ih =>
    refine ⟨reads_array blank fun v hv => ih v hv (sized_array.1 sized v hv), fun depth => ⟨'[', ?_⟩⟩
    cases items <;> exact ⟨_, by simp [Value.render]; rfl, rfl, by decide⟩
  | @object members distinct _ ih =>
    refine ⟨reads_object blank distinct fun m hm => (ih m hm (sized_object.1 sized m hm)).1, fun depth => ⟨'{', ?_⟩⟩
    cases members <;> exact ⟨_, by simp [Value.render]; rfl, rfl, by decide⟩

end Containers

/-- A text of characters with small codes only. -/
def Ascii (cs : List Char) : Prop := ∀ c ∈ cs, c.toNat < 0x80

@[simp] theorem ascii_nil : Ascii [] := nofun

@[simp] theorem ascii_cons {c : Char} {cs : List Char} : Ascii (c :: cs) ↔ c.toNat < 0x80 ∧ Ascii cs :=
  List.forall_mem_cons

@[simp] theorem ascii_append {cs ds : List Char} : Ascii (cs ++ ds) ↔ Ascii cs ∧ Ascii ds := List.forall_mem_append

theorem ascii_flatMap {α : Type} {xs : List α} {f : α → List Char} (h : ∀ x ∈ xs, Ascii (f x)) :
    Ascii (xs.flatMap f) := by
  intro c hc
  obtain ⟨x, hx, hc⟩ := List.mem_flatMap.1 hc
  exact h x hx c hc

theorem ascii_hex (width n : Nat) : Ascii (Text.hex width n) := by
  induction width generalizing n with
  | zero => exact ascii_nil
  | succ width ih =>
    have each : ∀ d : Fin 16, (Nat.digitChar d).toNat < 0x80 := by decide
    rw [Text.hex, ascii_append]
    exact ⟨ih _, ascii_cons.2 ⟨each ⟨n % 16, Nat.mod_lt _ (by decide)⟩, ascii_nil⟩⟩

theorem ascii_escaped (c : Char) : Ascii (escaped c) := by
  obtain ⟨-, d, text, -, -, small⟩ | ⟨text, -, -, -, small⟩ | text := escaped_cases c
  · rw [text]
    exact ascii_cons.2 ⟨by decide, ascii_cons.2 ⟨small, ascii_nil⟩⟩
  · rw [text]
    exact ascii_cons.2 ⟨by omega, ascii_nil⟩
  · rw [text]
    exact ascii_flatMap fun u _ => by simpa using ascii_hex 4 u

theorem ascii_stringText (s : String) : Ascii (stringText s).toList := by
  simpa [stringText] using ascii_flatMap fun c _ => ascii_escaped c

theorem ascii_repr (n : Int) : Ascii n.repr.toList := by
  intro c hc
  obtain digit | rfl := Text.digit_or_minus_of_mem_repr hc
  · simp only [Char.isDigit, Bool.and_eq_true, decide_eq_true_eq] at digit
    have low : c.toNat ≤ 57 := digit.2
    omega
  · decide

section Texts

variable {style : Style} (blank : style.Blank)

include blank

theorem ascii_lineBreak (depth : Nat) : Ascii (style.lineBreak depth).toList := by
  intro c hc
  have space := lineBreak_spaces blank depth c hc
  simp only [isSpace, Bool.or_eq_true, beq_iff_eq] at space
  obtain ((rfl | rfl) | rfl) | rfl := space <;> decide

theorem ascii_separator (depth : Nat) : Ascii (style.separator depth).toList := by
  cases style with
  | compact => simp [Style.separator]
  | indented unit => simpa [Style.separator] using ascii_lineBreak blank depth

theorem ascii_items {vs : List Value} (h : ∀ v ∈ vs, ∀ depth, Ascii (v.render style depth).toList) (depth : Nat) :
    Ascii (renderItems style depth vs).toList := by
  induction vs with
  | nil => simp [renderItems]
  | cons v vs ih =>
    obtain ⟨head, tail⟩ := List.forall_mem_cons.1 h
    simp [renderItems, ascii_separator blank, head, ih tail]

theorem ascii_members {ms : Members} (h : ∀ m ∈ ms, ∀ depth, Ascii (m.2.render style depth).toList) (depth : Nat) :
    Ascii (renderMembers style depth ms).toList := by
  induction ms with
  | nil => simp [renderMembers]
  | cons m ms ih =>
    obtain ⟨head, tail⟩ := List.forall_mem_cons.1 h
    simp [renderMembers, ascii_separator blank, ascii_stringText, head, ih tail]

theorem Plain.ascii_render {v : Value} (plain : Plain v) (depth : Nat) : Ascii (v.render style depth).toList := by
  induction plain generalizing depth with
  | null => simp [Value.render]
  | bool b => cases b <;> simp [Value.render]
  | int n => simpa [Value.render] using ascii_repr n
  | string s => simpa [Value.render] using ascii_stringText s
  | @array items _ ih =>
    cases items with
    | nil => simp [Value.render]
    | cons v vs =>
      obtain ⟨head, tail⟩ := List.forall_mem_cons.1 ih
      simp [Value.render, ascii_lineBreak blank, head, ascii_items blank tail]
  | @object members _ _ ih =>
    cases members with
    | nil => simp [Value.render]
    | cons m ms =>
      obtain ⟨head, tail⟩ := List.forall_mem_cons.1 ih
      simp [Value.render, ascii_lineBreak blank, ascii_stringText, head, ascii_members blank tail]

/-- The text of a value is read back as that value, whatever blanks stand behind it. -/
theorem Plain.parse_text {v : Value} (plain : Plain v) (sized : v.Sized) (blanks : String)
    (spaces : ∀ c ∈ blanks.toList, isSpace c = true) : parse (v.text style ++ blanks) = .ok v := by
  obtain ⟨reads, starts⟩ := plain.reads_starts blank sized
  obtain ⟨c, inner, text, -, -⟩ := starts 0
  have small : Ascii (c :: inner) := text ▸ plain.ascii_render blank 0
  have mark : c ≠ '\uFEFF' := by
    rintro rfl
    exact absurd (ascii_cons.1 small).1 (by decide)
  have behind : Delimited (blanks.toList ++ []) := delimited_spaces spaces nofun
  have first : (v.text style ++ blanks).toList.head? ≠ some '\uFEFF' := by simpa [Value.text, text] using mark
  have whole : run ⟨.value, []⟩ (v.text style ++ blanks).toList = .ok v := by
    rw [Value.text, String.toList_append, ← List.append_nil blanks.toList, reads 0 [] _ behind, run_spaces spaces]
    rw [run]
  simp only [parse, if_neg first, whole]
  rfl

end Texts

end CInterface.Json
