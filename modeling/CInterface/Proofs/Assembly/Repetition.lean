import CInterface.Proofs.Assembly.Reordering
import CInterface.Proofs.Selection.Rule

/-!
# Input that is there already

Declarations that have occurred before are refused when they come again: of each name in the header and of each alias
the first one counts, whatever became of it. So a repetition adds its own diagnostics, and nothing is selected,
resolved or left out otherwise.
-/

namespace CInterface

open Source

/-- Aliases whose names have all occurred are not among the first. -/
theorem firstByName_known (seen : List String) (before : List Alias) {after : List Alias}
    (known : ∀ a ∈ after, a.name ∈ before.map Alias.name) :
    firstByName seen (before ++ after) = firstByName seen before := by
  induction after with
  | nil => rw [List.append_nil]
  | cons a after ih =>
    obtain ⟨first, others⟩ := List.forall_mem_cons.1 known
    rw [firstByName_skip after (.inr first), ih others]

namespace Selection

variable {taken ds es : List Declaration} {e : Declaration}

/-- Declarations of which none is accepted are judged each by itself. -/
theorem judge_unaccepted (h : ∀ e ∈ es, verdict taken e ≠ .accepted) :
    judge taken es = es.map fun e => (e, verdict taken e) := by
  induction es with
  | nil => rfl
  | cons e es ih =>
    obtain ⟨first, others⟩ := List.forall_mem_cons.1 h
    rw [List.map_cons, ← ih others]
    cases hv : verdict taken e with
    | accepted => exact absurd hv first
    | internal => simp only [judge, hv]
    | refused cause => simp only [judge, hv]

/-- What can be exported has its name in the header taken, by itself or by what came before it. -/
theorem exists_holder (mem : e ∈ ds) (exportable : e.isExportable = true) :
    ∃ holder ∈ (of ds).accepted, holder.headerName = e.headerName := by
  obtain ⟨before, after, rfl⟩ := List.append_of_mem mem
  have parts : (of (before ++ e :: after)).accepted =
      (of before).accepted ++ acceptedAfter (of before).accepted (e :: after) := acceptedAfter_append [] before _
  rw [parts]
  cases hv : verdict (of before).accepted e with
  | internal =>
    have eligible := (Bool.and_eq_true_iff.1 exportable).1
    cases eligible.symm.trans (verdict_eq_internal.1 hv)
  | accepted =>
    rw [acceptedAfter_cons_accepted after hv]
    exact ⟨e, List.mem_append_right _ List.mem_cons_self, rfl⟩
  | refused cause =>
    obtain ⟨holder, before, same, -⟩ := duplicate_of_refused exportable hv
    exact ⟨holder, List.mem_append_left _ before, same⟩

/-- What has occurred is not accepted again. -/
theorem not_accepted_again (mem : e ∈ ds) : verdict (of ds).accepted e ≠ .accepted := by
  intro accepted
  obtain ⟨holder, held, same⟩ := exists_holder mem (isExportable_of_accepted accepted)
  exact headerName_free_of_accepted accepted (List.mem_map.2 ⟨holder, held, same⟩)

section

variable (repeated : ∀ e ∈ es, e ∈ ds)

include repeated

theorem judge_again : judge [] (ds ++ es) = judge [] ds ++ es.map fun e => (e, verdict (of ds).accepted e) := by
  rw [judge_append, List.nil_append]
  exact congrArg _ (judge_unaccepted fun e he => not_accepted_again (repeated e he))

theorem accepted_again : (of (ds ++ es)).accepted = (of ds).accepted := by
  have none : (es.map fun e => (e, verdict (of ds).accepted e)).filterMap accepted? = [] := by
    rw [List.filterMap_map, List.filterMap_eq_nil_iff]
    intro e he
    have out := not_accepted_again (repeated e he)
    cases hv : verdict (of ds).accepted e with
    | accepted => exact absurd hv out
    | internal => simp [accepted?, hv]
    | refused cause => simp [accepted?, hv]
  change (judge [] (ds ++ es)).filterMap accepted? = _
  rw [judge_again repeated, List.filterMap_append, none, List.append_nil]
  rfl

theorem diagnostics_again : (of (ds ++ es)).diagnostics =
    (of ds).diagnostics ++ es.filterMap fun e => diagnostic? (e, verdict (of ds).accepted e) := by
  change (judge [] (ds ++ es)).filterMap diagnostic? = _
  rw [judge_again repeated, List.filterMap_append, List.filterMap_map]
  rfl

theorem aliases_again : (of (ds ++ es)).aliases = (of ds).aliases := by
  change firstByName [] (supportedAliases _) = firstByName [] (supportedAliases _)
  rw [supportedAliases_append]
  refine firstByName_known [] _ fun a ha => ?_
  obtain ⟨mem, supported⟩ := mem_supportedAliases.1 ha
  exact List.mem_map_of_mem (mem_supportedAliases.2 ⟨repeated _ mem, supported⟩)

end

/-- What the diagnostic says of a declaration that is there again: that it is generic, or which accepted declaration
takes its name. -/
inductive ReportsAgain (accepted : List Declaration) (e : Declaration) (g : Diagnostic) : Prop
  | unsupported (a : Alias) (here : e = .alias a) (generic : a.IsGeneric)
      (kind : g.cause.kind = "unsupported-alias")
      (reason : g.cause.reason = "generic type alias is not supported: " ++ a.text)
  | duplicate (holder : Declaration) (plain : ¬ e.IsGeneric) (held : holder ∈ accepted)
      (same : holder.headerName = e.headerName) (kind : g.cause.kind = "duplicate-name")
      (reason : g.cause.reason = "name already exported by " ++ holder.kind.label ++ " " ++ holder.name)

/-- Each eligible declaration that is there again has one diagnostic, in the order in which they come. -/
theorem reported_again (repeated : ∀ e ∈ es, e ∈ ds) :
    List.Forall₂ (fun e g => g.name = e.name ∧ g.location = e.location ∧ ReportsAgain (of ds).accepted e g)
      (es.filter (·.isEligible)) (es.filterMap fun e => diagnostic? (e, verdict (of ds).accepted e)) := by
  have sorted : ∀ e ∈ es, e.isEligible = (diagnostic? (e, verdict (of ds).accepted e)).isSome := by
    intro e he
    have out := not_accepted_again (repeated e he)
    cases hv : verdict (of ds).accepted e with
    | accepted => exact absurd hv out
    | internal => exact verdict_eq_internal.1 hv
    | refused cause => exact isEligible_of_verdict hv (by simp)
  rw [List.filter_congr sorted]
  refine (forall₂_filterMap (fun _ => rfl) es).imp fun e g report => ?_
  cases hv : verdict (of ds).accepted e with
  | accepted => cases hv ▸ report
  | internal => cases hv ▸ report
  | refused cause =>
    rw [hv, diagnostic?, Option.some.injEq] at report
    subst report
    refine ⟨rfl, rfl, ?_⟩
    obtain ⟨a, here, generic, rfl⟩ | ⟨plain, holder, held, same, rfl⟩ := cause_of_refused hv
    · exact .unsupported a here generic rfl rfl
    · exact .duplicate holder plain held same rfl rfl

end Selection

namespace Assembly

variable {ds es : List Declaration}

theorem scope_again (repeated : ∀ e ∈ es, e ∈ ds) : scope (ds ++ es) = scope ds := by
  rw [scope, scope, Scope.ofSelection, Scope.ofSelection, Selection.exportedNames, Selection.exportedNames,
    Selection.aliases_again repeated, Selection.accepted_again repeated]

/-- Behind a list of declarations, more of them that are all in the list already change nothing but that each eligible
one is reported: as generic, or as a duplicate of the accepted declaration that takes its name. -/
theorem repetition_harmless (ds es : List Declaration) (repeated : ∀ e ∈ es, e ∈ ds) (target : String) :
    (of (ds ++ es) target).header = (of ds target).header ∧
      ∃ again later,
        (of ds target).diagnostics = (Selection.of ds).diagnostics ++ later ∧
        (of (ds ++ es) target).diagnostics = (Selection.of ds).diagnostics ++ again ++ later ∧
        List.Forall₂ (fun e g => g.name = e.name ∧ g.location = e.location ∧
          Selection.ReportsAgain (Selection.of ds).accepted e g) (es.filter (·.isEligible)) again := by
  obtain ⟨emitted, reports⟩ := emitted_reports_congr (Selection.accepted_again repeated) fun e _ =>
    congrArg (Scope.resolveDeclaration · e) (scope_again repeated)
  refine ⟨by rw [header_of, header_of, emitted], _, _, diagnostics_of ds target, ?_, Selection.reported_again repeated⟩
  rw [diagnostics_of, reports, Selection.diagnostics_again repeated]

/-- Given twice, the fleet has the same header, and its five eligible declarations are reported once more. -/
theorem repetition_harmless_fleet :
    (∀ e ∈ fleet, e ∈ fleet) ∧ (of (fleet ++ fleet) "lib.h").header = (of fleet "lib.h").header ∧
      (of fleet "lib.h").diagnostics.length = 3 ∧ (of (fleet ++ fleet) "lib.h").diagnostics.length = 8 := by
  have repeated : ∀ e ∈ fleet, e ∈ fleet := fun _ he => he
  obtain ⟨header, again, later, once, twice, reported⟩ := repetition_harmless fleet fleet repeated "lib.h"
  have before : (of fleet "lib.h").diagnostics.length = 3 := by decide +kernel
  have eligible : (fleet.filter (·.isEligible)).length = 5 := by decide +kernel
  have added := reported.length_eq
  rw [once, List.length_append] at before
  refine ⟨repeated, header, ?_, ?_⟩
  · rw [once, List.length_append, before]
  · rw [twice, List.length_append, List.length_append]
    omega

end Assembly

end CInterface
