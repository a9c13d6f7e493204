import CInterface.Proofs.Json.RoundTrip
import Mathlib.Data.List.TakeWhile

/-!
# No long numbers are read

A whole number that is read has no more digits than its numeral, and a numeral with too many digits is refused. What
has been read so far is kept in the state and holds no other numbers, and so does the value that is read in the end.
-/

namespace CInterface.Json

open Decimal (digitCount maxDigits)

theorem ofDigitChars_lt {ds : List Char} (h : ∀ d ∈ ds, d.isDigit = true) (start : Nat) :
    Nat.ofDigitChars 10 ds start < (start + 1) * 10 ^ ds.length := by
  induction ds generalizing start with
  | nil => simp [Nat.ofDigitChars]
  | cons d ds ih =>
    obtain ⟨head, tail⟩ := List.forall_mem_cons.1 h
    simp only [Char.isDigit, Bool.and_eq_true, decide_eq_true_eq] at head
    have low : d.toNat ≤ 57 := head.2
    have zero : '0'.toNat = 48 := rfl
    calc Nat.ofDigitChars 10 (d :: ds) start
        = Nat.ofDigitChars 10 ds (10 * start + (d.toNat - '0'.toNat)) := Nat.ofDigitChars_cons
      _ < (10 * start + (d.toNat - '0'.toNat) + 1) * 10 ^ ds.length := ih tail _
      _ ≤ ((start + 1) * 10) * 10 ^ ds.length := Nat.mul_le_mul_right _ (by omega)
      _ = (start + 1) * 10 ^ (d :: ds).length := by rw [List.length_cons, pow_succ', Nat.mul_assoc]

theorem length_toDigits_ofDigitChars {ds : List Char} (h : ∀ d ∈ ds, d.isDigit = true) (some : ds ≠ []) :
    (Nat.toDigits 10 (Nat.ofDigitChars 10 ds 0)).length ≤ ds.length :=
  (Nat.length_toDigits_le_iff (by decide) (List.length_pos_iff.2 some)).2 (by simpa using ofDigitChars_lt h 0)

theorem wholePart?_digits_only {s whole rest : List Char} (h : wholePart? s = some (whole, rest)) :
    whole ≠ [] ∧ ∀ d ∈ whole, d.isDigit = true := by
  rw [wholePart?.eq_def] at h
  split at h
  · cases h
  split at h
  · next zero =>
    cases h
    exact ⟨by simp, List.forall_mem_singleton.2 (zero ▸ rfl)⟩
  split at h
  · next digit =>
    cases h
    exact ⟨by simp, List.forall_mem_cons.2 ⟨digit, fun d hd => List.mem_takeWhile_imp hd⟩⟩
  · cases h

theorem unsigned?_digits_only {negative : Bool} {s rest : List Char} {n : Numeral}
    (h : unsigned? negative s = some (n, rest)) : n.whole ≠ [] ∧ ∀ d ∈ n.whole, d.isDigit = true := by
  rw [unsigned?] at h
  split at h
  · cases h
  · next whole =>
    cases h
    exact wholePart?_digits_only whole

theorem numeral?_digits_only {s rest : List Char} {n : Numeral} (h : numeral? s = some (n, rest)) :
    n.whole ≠ [] ∧ ∀ d ∈ n.whole, d.isDigit = true := by
  rw [numeral?.eq_def] at h
  split at h <;> exact unsigned?_digits_only h

/-- The value of a lexeme that is one has no long whole numbers. -/
def Lexeme.Sized : Lexeme → Prop
  | .scalar v => v.Sized
  | _ => True

theorem sized_of_integers_eq_nil {v : Value} (h : v.integers = []) : v.Sized := by
  simp [Value.Sized, h]

theorem lexeme_sized {n : Numeral} (some : n.whole ≠ []) (digits : ∀ d ∈ n.whole, d.isDigit = true) :
    n.lexeme.Sized := by
  rw [Numeral.lexeme]
  split
  · split
    · trivial
    · next short =>
      have count := length_toDigits_ofDigitChars digits some
      intro m hm
      obtain rfl := List.mem_singleton.1 hm
      have size : (if n.negative then -(Nat.ofDigitChars 10 n.whole 0 : Int) else Nat.ofDigitChars 10 n.whole 0).natAbs
          = Nat.ofDigitChars 10 n.whole 0 := by
        split <;> omega
      rw [digitCount, size]
      omega
  · exact sized_of_integers_eq_nil rfl

theorem read_sized (c : Char) (rest : List Char) : (Lexeme.read c rest).1.Sized := by
  rw [Lexeme.read]
  split
  · next mark =>
    rw [mark?.eq_def] at mark
    split at mark <;> cases mark <;> trivial
  split
  · split <;> trivial
  split
  · next v after word =>
    obtain ⟨⟨w, u⟩, hw, found⟩ := List.exists_of_findSome?_eq_some word
    have each : ∀ p ∈ words, p.2.integers = [] := by decide
    simp only at found
    split at found
    · cases found
      exact sized_of_integers_eq_nil (each _ hw)
    · cases found
  split
  · next numeral =>
    obtain ⟨some, digits⟩ := numeral?_digits_only numeral
    exact lexeme_sized some digits
  · trivial

def Frame.Sized : Frame → Prop
  | .array items => ∀ v ∈ items, v.Sized
  | .object members _ => ∀ m ∈ members, m.2.Sized

def Want.Sized : Want → Prop
  | .value | .item => True
  | .name members _ | .colon members _ => ∀ m ∈ members, m.2.Sized
  | .after v => v.Sized

/-- Nothing that has been read so far has long whole numbers. -/
structure State.Sized (state : State) : Prop where
  want : state.want.Sized
  stack : ∀ frame ∈ state.stack, frame.Sized

theorem put_sized {members : Members} (h : ∀ m ∈ members, m.2.Sized) (name : String) {v : Value} (sized : v.Sized) :
    ∀ m ∈ members.put name v, m.2.Sized := by
  induction members with
  | nil => exact List.forall_mem_singleton.2 sized
  | cons m members ih =>
    obtain ⟨head, tail⟩ := List.forall_mem_cons.1 h
    rw [Members.put]
    split
    · exact List.forall_mem_cons.2 ⟨sized, tail⟩
    · exact List.forall_mem_cons.2 ⟨head, ih tail⟩

theorem start_sized (here : List Char) {stack : List Frame} {lexeme : Lexeme} {next : State}
    (sized : lexeme.Sized) (h : ∀ frame ∈ stack, frame.Sized) (start : State.start here stack lexeme = .ok next) :
    next.Sized := by
  cases lexeme <;> cases start
  · exact ⟨trivial, h⟩
  · exact ⟨List.forall_mem_nil _, h⟩
  · exact ⟨sized_of_integers_eq_nil rfl, h⟩
  · exact ⟨sized, h⟩

theorem step_sized {here : List Char} {state next : State} {lexeme : Lexeme} (sized : lexeme.Sized)
    (h : state.Sized) (step : state.step here lexeme = .ok next) : next.Sized := by
  obtain ⟨want, stack⟩ := state
  obtain ⟨wanted, opened⟩ := h
  have empty : (Value.array []).Sized := sized_of_integers_eq_nil rfl
  cases want with
  | value => exact start_sized here sized opened step
  | item =>
    have opened' : ∀ frame ∈ Frame.array [] :: stack, frame.Sized :=
      List.forall_mem_cons.2 ⟨List.forall_mem_nil _, opened⟩
    cases lexeme with
    | closeArray =>
      cases step
      exact ⟨empty, opened⟩
    | _ => exact start_sized here sized opened' step
  | name members closable =>
    cases closable <;> cases lexeme <;> cases step
    · exact ⟨wanted, opened⟩
    · exact ⟨sized_object.2 wanted, opened⟩
    · exact ⟨wanted, opened⟩
  | colon members name =>
    cases lexeme <;> cases step
    exact ⟨trivial, List.forall_mem_cons.2 ⟨wanted, opened⟩⟩
  | after v =>
    cases stack with
    | nil => cases lexeme <;> cases step
    | cons frame stack =>
      obtain ⟨inner, outer⟩ := List.forall_mem_cons.1 opened
      cases frame with
      | array items =>
        have items' : ∀ w ∈ v :: items, w.Sized := List.forall_mem_cons.2 ⟨wanted, inner⟩
        cases lexeme <;> cases step
        · exact ⟨sized_array.2 fun w hw => items' w (List.mem_reverse.1 hw), outer⟩
        · exact ⟨trivial, List.forall_mem_cons.2 ⟨items', outer⟩⟩
      | object members name =>
        have members' := put_sized inner name wanted
        cases lexeme <;> cases step
        · exact ⟨sized_object.2 members', outer⟩
        · exact ⟨members', outer⟩

theorem run_sized (state : State) {s : List Char} {v : Value} (h : state.Sized) (ran : run state s = .ok v) :
    v.Sized := by
  induction state, s using run.induct with
  | case1 state w ended wanted =>
    rw [run, ended, wanted] at ran
    obtain rfl := Except.ok.inj ran
    have sized := h.want
    rwa [wanted] at sized
  | case2 state unended =>
    rw [run] at ran
    split at ran
    · next w wanted ended => exact (unended w wanted ended).elim
    · cases step : state.step [] .endOfText <;> rw [step] at ran <;> cases ran
  | case3 state c rest blank ih =>
    rw [run_space blank] at ran
    exact ih h ran
  | case4 state c rest solid ih =>
    rw [run, if_neg solid] at ran
    cases step : state.step (c :: rest) (Lexeme.read c rest).1 with
    | error f =>
      rw [step] at ran
      cases ran
    | ok next =>
      rw [step] at ran
      exact ih next (step_sized (read_sized c rest) h step) ran

/-- What is read of a text has no long whole numbers. -/
theorem parse_sized {text : String} {v : Value} (h : parse text = .ok v) : v.Sized := by
  simp only [parse] at h
  split at h
  · cases h
  · cases ran : run ⟨.value, []⟩ text.toList with
    | error f =>
      rw [ran] at h
      cases h
    | ok w =>
      rw [ran] at h
      cases h
      exact run_sized ⟨.value, []⟩ ⟨trivial, List.forall_mem_nil _⟩ ran

end CInterface.Json
