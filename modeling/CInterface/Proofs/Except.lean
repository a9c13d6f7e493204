import Mathlib.Data.List.Forall2

/-!
# Computations that may fail

When a computation in steps has a result: each of its steps has one, from which the next one goes on.
-/

namespace CInterface

variable {ε α β : Type}

theorem except_map_ok {f : α → β} {x : Except ε α} {b : β} : x.map f = .ok b ↔ ∃ a, x = .ok a ∧ f a = b := by
  cases x <;> simp [Except.map]

theorem except_map_error {f : α → β} {x : Except ε α} {e : ε} : x.map f = .error e ↔ x = .error e := by
  cases x <;> simp [Except.map]

theorem except_mapError_ok {f : ε → β} {x : Except ε α} {a : α} : x.mapError f = .ok a ↔ x = .ok a := by
  cases x with
  | ok b => exact ⟨fun h => congrArg Except.ok (Except.ok.inj h), fun h => congrArg Except.ok (Except.ok.inj h)⟩
  | error e => exact ⟨nofun, nofun⟩

theorem except_mapError_error {f : ε → β} {x : Except ε α} {e : β} :
    x.mapError f = .error e ↔ ∃ cause, x = .error cause ∧ f cause = e := by
  cases x with
  | ok a => exact ⟨nofun, nofun⟩
  | error cause =>
    refine ⟨fun h => ⟨cause, rfl, Except.error.inj h⟩, ?_⟩
    rintro ⟨_, h, rfl⟩
    cases h
    rfl

theorem except_bind_ok {f : α → Except ε β} {x : Except ε α} {b : β} :
    (x >>= f) = .ok b ↔ ∃ a, x = .ok a ∧ f a = .ok b := by
  cases x <;> simp [bind, Except.bind]

theorem except_bind_error {f : α → Except ε β} {x : Except ε α} {e : ε} :
    (x >>= f) = .error e ↔ x = .error e ∨ ∃ a, x = .ok a ∧ f a = .error e := by
  cases x <;> simp [bind, Except.bind]

/-- Two steps with the same results lead to the same results. -/
theorem except_bind_ok_congr {x y : Except ε α} (h : ∀ a, x = .ok a ↔ y = .ok a) (f : α → Except ε β) (b : β) :
    (x >>= f) = .ok b ↔ (y >>= f) = .ok b := by
  simp only [except_bind_ok, h]

theorem except_ok_bind (a : α) (f : α → Except ε β) : ((.ok a : Except ε α) >>= f) = f a := rfl

/-- That a computation has a result. -/
def Yields (x : Except ε α) : Prop := ∃ a, x = .ok a

@[simp] theorem yields_ok (a : α) : Yields (.ok a : Except ε α) := ⟨a, rfl⟩

@[simp] theorem yields_pure (a : α) : Yields (pure a : Except ε α) := ⟨a, rfl⟩

@[simp] theorem not_yields_error (e : ε) : ¬ Yields (.error e : Except ε α) := nofun

@[simp] theorem not_yields_throw (e : ε) : ¬ Yields (throw e : Except ε α) := nofun

@[simp] theorem yields_map (f : α → β) (x : Except ε α) : Yields (x.map f) ↔ Yields x := by
  cases x <;> simp [Except.map]

@[simp] theorem yields_functor_map (f : α → β) (x : Except ε α) : Yields (f <$> x) ↔ Yields x := yields_map f x

@[simp] theorem yields_mapError (f : ε → β) (x : Except ε α) : Yields (x.mapError f) ↔ Yields x :=
  exists_congr fun _ => except_mapError_ok

theorem yields_bind (f : α → Except ε β) (x : Except ε α) :
    Yields (x >>= f) ↔ ∃ a, x = .ok a ∧ Yields (f a) := by
  cases x <;> simp [bind, Except.bind]

theorem exists_eq_ok (x : Except ε α) : (∃ a, x = .ok a) ↔ Yields x := Iff.rfl

theorem yields_mapM (f : α → Except ε β) (as : List α) : Yields (as.mapM f) ↔ ∀ a ∈ as, Yields (f a) := by
  induction as with
  | nil => simp
  | cons a as ih => simp [List.mapM_cons, yields_bind, exists_eq_ok, ih]

theorem except_mapM_ok {f : α → Except ε β} {as : List α} {bs : List β} :
    as.mapM f = .ok bs ↔ List.Forall₂ (fun a b => f a = .ok b) as bs := by
  induction as generalizing bs with
  | nil => cases bs <;> simp [pure, Except.pure]
  | cons a as ih =>
    rw [List.mapM_cons, List.forall₂_cons_left_iff, except_bind_ok]
    simp only [except_bind_ok, ih]
    constructor
    · rintro ⟨b, first, rest, others, h⟩
      cases h
      exact ⟨b, rest, first, others, rfl⟩
    · rintro ⟨b, rest, first, others, rfl⟩
      exact ⟨b, first, rest, others, rfl⟩

theorem except_mapM_cons_error {f : α → Except ε β} {a : α} {as : List α} {e : ε} :
    (a :: as).mapM f = .error e ↔ f a = .error e ∨ Yields (f a) ∧ as.mapM f = .error e := by
  rw [List.mapM_cons]
  cases f a <;> cases as.mapM f <;> simp [bind, Except.bind, pure, Except.pure]

theorem forall₂_mem_right {α β : Type} {R : α → β → Prop} {xs : List α} {ys : List β}
    (h : List.Forall₂ R xs ys) {y : β} (hy : y ∈ ys) : ∃ x ∈ xs, R x y := by
  induction h with
  | nil => cases hy
  | @cons x z xs zs hr _ ih =>
    rcases List.mem_cons.1 hy with rfl | hy
    · exact ⟨x, List.mem_cons_self, hr⟩
    · obtain ⟨w, hw, hr⟩ := ih hy
      exact ⟨w, List.mem_cons_of_mem _ hw, hr⟩

theorem forall₂_mem_left {α β : Type} {R : α → β → Prop} {xs : List α} {ys : List β}
    (h : List.Forall₂ R xs ys) {x : α} (hx : x ∈ xs) : ∃ y ∈ ys, R x y :=
  forall₂_mem_right h.flip hx

/-- A list is gone through up to the first member that fails. -/
theorem except_mapM_error {f : α → Except ε β} {as : List α} {e : ε} :
    as.mapM f = .error e ↔
      ∃ before a after, as = before ++ a :: after ∧ (∀ b ∈ before, Yields (f b)) ∧ f a = .error e := by
  induction as with
  | nil => simp [pure, Except.pure]
  | cons a as ih =>
    rw [except_mapM_cons_error, ih]
    constructor
    · rintro (fails | ⟨fine, before, b, after, rfl, others, fails⟩)
      · exact ⟨[], a, as, rfl, nofun, fails⟩
      · exact ⟨a :: before, b, after, rfl, List.forall_mem_cons.2 ⟨fine, others⟩, fails⟩
    · rintro ⟨before, b, after, split, others, fails⟩
      cases before with
      | nil =>
        obtain ⟨rfl, -⟩ := List.cons.inj split
        exact .inl fails
      | cons c before =>
        obtain ⟨rfl, rfl⟩ := List.cons.inj split
        obtain ⟨fine, others⟩ := List.forall_mem_cons.1 others
        exact .inr ⟨fine, before, b, after, rfl, others, fails⟩

/-- What every step keeps, going through a list keeps. -/
theorem except_foldlM_keeps {P : β → Prop} {step : β → α → Except ε β}
    (keeps : ∀ b a b', P b → step b a = .ok b' → P b') {as : List α} {b b' : β} (h : P b)
    (done : as.foldlM step b = .ok b') : P b' := by
  induction as generalizing b with
  | nil =>
    cases done
    exact h
  | cons a as ih =>
    rw [List.foldlM_cons, except_bind_ok] at done
    obtain ⟨c, first, rest⟩ := done
    exact ih (keeps b a c h first) rest

end CInterface
