import CInterface.Proofs.Selection.DistinctNames

/-!
# Every eligible declaration is accepted or refused

A selection sorts the declarations of its input: what is not eligible is internal, and the rest is accepted or refused
with a cause. The refusals are the diagnostics of the selection, and each of them is reported when it happens.
-/

namespace CInterface

open Source

/-- The warnings of the stages that leave declarations out. -/
def Event.isReport (e : Event) : Bool :=
  e.level == .warning && (e.stage == .selection || e.stage == .generation)

theorem verdict_eq_internal {taken : List Declaration} {d : Declaration} :
    verdict taken d = .internal ↔ d.isEligible = false := by
  rw [verdict]
  cases he : d.isEligible with
  | false => simp
  | true =>
    simp only [Bool.not_true, Bool.false_eq_true, if_false, reduceCtorEq, iff_false]
    split
    · simp
    · split <;> simp

theorem isEligible_of_verdict {taken : List Declaration} {d : Declaration} {v : Verdict} (h : verdict taken d = v)
    (sorted : v ≠ .internal) : d.isEligible = true := by
  by_contra out
  exact sorted (h.symm.trans (verdict_eq_internal.2 (Bool.eq_false_iff.2 out)))

namespace Selection

def refused? : Declaration × Verdict → Option (Declaration × Diagnostic.Cause)
  | (d, .refused cause) => some (d, cause)
  | _ => none

/-- The declarations refused from a list after `taken`, each with its cause. -/
def refusedAfter (taken ds : List Declaration) : List (Declaration × Diagnostic.Cause) :=
  (judge taken ds).filterMap refused?

theorem refusedAfter_cons_accepted {taken : List Declaration} {d : Declaration} (ds : List Declaration)
    (h : verdict taken d = .accepted) : refusedAfter taken (d :: ds) = refusedAfter (taken ++ [d]) ds := by
  simp only [refusedAfter, judge, h, List.filterMap_cons, refused?]

theorem refusedAfter_cons_internal {taken : List Declaration} {d : Declaration} (ds : List Declaration)
    (h : verdict taken d = .internal) : refusedAfter taken (d :: ds) = refusedAfter taken ds := by
  simp only [refusedAfter, judge, h, List.filterMap_cons, refused?]

theorem refusedAfter_cons_refused {taken : List Declaration} {d : Declaration} {cause : Diagnostic.Cause}
    (ds : List Declaration) (h : verdict taken d = .refused cause) :
    refusedAfter taken (d :: ds) = (d, cause) :: refusedAfter taken ds := by
  simp only [refusedAfter, judge, h, List.filterMap_cons, refused?]

/-- What is accepted and what is refused are together the eligible declarations. -/
theorem accepted_refused_perm (taken ds : List Declaration) :
    (acceptedAfter taken ds ++ (refusedAfter taken ds).map Prod.fst).Perm (ds.filter (·.isEligible)) := by
  induction ds generalizing taken with
  | nil => exact List.Perm.refl _
  | cons d ds ih =>
    cases hv : verdict taken d with
    | internal =>
      have out : d.isEligible = false := verdict_eq_internal.1 hv
      rw [acceptedAfter_cons_other ds (by simp [hv]), refusedAfter_cons_internal ds hv,
        List.filter_cons_of_neg (by simp [out])]
      exact ih taken
    | accepted =>
      have eligible : d.isEligible = true := isEligible_of_verdict hv (by simp)
      rw [acceptedAfter_cons_accepted ds hv, refusedAfter_cons_accepted ds hv, List.filter_cons_of_pos eligible]
      exact (ih (taken ++ [d])).cons d
    | refused cause =>
      have eligible : d.isEligible = true := isEligible_of_verdict hv (by simp)
      rw [acceptedAfter_cons_other ds (by simp [hv]), refusedAfter_cons_refused ds hv,
        List.filter_cons_of_pos eligible]
      exact List.perm_middle.trans ((ih taken).cons d)

theorem diagnostics_eq (ds : List Declaration) :
    (of ds).diagnostics = (refusedAfter [] ds).map fun r => Diagnostic.of r.1 r.2 := by
  rw [refusedAfter, List.map_filterMap]
  refine congrArg (List.filterMap · _) (funext fun p => ?_)
  rcases p with ⟨d, _ | _ | cause⟩ <;> rfl

/-- Whatever is told while declarations are selected comes from that stage. -/
theorem events_stage {ds : List Declaration} {e : Event} (h : e ∈ (of ds).events) :
    e.stage = .selection := by
  obtain ⟨⟨d, v⟩, -, told⟩ := List.mem_filterMap.1 h
  cases v with
  | accepted => cases told
  | refused cause =>
    cases told
    rfl
  | internal =>
    rw [event?] at told
    split at told
    · cases told
    · cases told
      rfl

theorem filter_event? (p : Declaration × Verdict) :
    (event? p).filter Event.isReport = (diagnostic? p).map (.skipping .selection) := by
  rcases p with ⟨d, _ | _ | cause⟩
  · -- what is internal is told of, but is no warning
    cases ha : d.alias?.isSome <;> simp [event?, diagnostic?, ha, Event.isReport, Event.level]
  · rfl
  · rfl

/-- A selection warns of its refusals, one after the other. -/
theorem reports_events (ds : List Declaration) :
    (of ds).events.filter Event.isReport = (of ds).diagnostics.map (.skipping .selection) := by
  simp only [of, List.filter_filterMap, List.map_filterMap]
  exact congrArg (List.filterMap · _) (funext filter_event?)

end Selection

end CInterface
