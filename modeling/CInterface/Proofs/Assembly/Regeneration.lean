import CInterface.Proofs.Assembly.Accounting
import CInterface.Proofs.Assembly.Reordering
import CInterface.Proofs.Resolution.SmallerScopes
import CInterface.Proofs.Selection.Reordering

/-!
# Assembling what survives

What an assembly reports can be taken out of its input. Where names are distinct, nothing that is emitted has a use for
it: the aliases and types that were left out may be followed on the way to a type, but no type comes to them. So the
input that is left gives the same header, and there is nothing more to report.
-/

namespace CInterface.Assembly

open Source

variable {ds : List Declaration} {d : Declaration} {name target : String}

/-- The declarations of a list that an assembly does not report. -/
def survivors (ds : List Declaration) : List Declaration := ds.filter (· ∉ (omissions ds).map Prod.fst)

theorem survivors_sublist (ds : List Declaration) : (survivors ds).Sublist ds := List.filter_sublist

section

variable (distinct : Distinct ds)

include distinct

/-- Reported is what is not supported and what is left out. -/
theorem mem_omissions : d ∈ (omissions ds).map Prod.fst ↔
    (d ∈ ds ∧ d.isEligible = true ∧ d.unsupported? ≠ none) ∨ LeftOut ds d := by
  rw [omissions, List.map_append, List.mem_append, mem_reports, distinct.refused]
  refine or_congr_left ?_
  rw [List.mem_map]
  constructor
  · rintro ⟨⟨e, cause⟩, mem, rfl⟩
    obtain ⟨f, hf, report⟩ := List.mem_filterMap.1 mem
    cases eligible : f.isEligible with
    | false => simp [Declaration.unsupportedReport?, eligible] at report
    | true =>
      cases unsupported : f.unsupported? with
      | none => simp [Declaration.unsupportedReport?, unsupported] at report
      | some a =>
        simp only [Declaration.unsupportedReport?, eligible, unsupported, if_true, Option.map_some,
          Option.some.injEq, Prod.mk.injEq] at report
        obtain ⟨rfl, -⟩ := report
        exact ⟨hf, eligible, by simp [unsupported]⟩
  · rintro ⟨mem, eligible, unsupported⟩
    obtain ⟨a, ha⟩ := Option.ne_none_iff_exists'.1 unsupported
    refine ⟨(d, .unsupportedAlias a), List.mem_filterMap.2 ⟨d, mem, ?_⟩, rfl⟩
    simp [Declaration.unsupportedReport?, eligible, ha]

/-- Of the accepted declarations, those that are emitted survive. -/
theorem accepted_survivors : (Selection.of (survivors ds)).accepted = emittedSources ds := by
  rw [(distinct.sublist (survivors_sublist ds)).accepted, survivors, List.filter_comm, ← distinct.accepted,
    emittedSources]
  refine List.filter_congr fun d hd => ?_
  have supported : d.unsupported? = none := by
    rw [distinct.accepted, List.mem_filter] at hd
    simpa using (Bool.and_eq_true_iff.1 hd.2).2
  rw [decide_eq_decide, mem_omissions distinct, mem_emitted_source]
  simp [supported, hd]

theorem inSections_survivors : (Selection.of (survivors ds)).inSections = (emitted ds).map (·.source) := by
  have order : (Selection.of (survivors ds)).inSections =
      (Selection.of ds).inSections.filter (· ∈ (emitted ds).map (·.source)) := by
    simp only [Selection.inSections, Selection.ofKind, accepted_survivors distinct, emittedSources,
      List.filter_append, List.filter_comm (fun d => decide (d ∈ (emitted ds).map (·.source)))]
  rw [order, filter_mem_of_sublist (emitted_sublist ds) (inSections_nodup ds)]

theorem mem_exported_survivors : name ∈ (scope (survivors ds)).exported ↔
    ∃ r ∈ emitted ds, r.source.kind ≠ .function ∧ r.source.name = name := by
  have sources : (Selection.of (survivors ds)).accepted.Perm ((emitted ds).map (·.source)) :=
    accepted_survivors distinct ▸ emittedSources_perm ds
  refine Selection.mem_exportedNames.trans ?_
  simp only [sources.mem_iff, List.mem_map, exists_exists_and_eq_and]

/-- An alias that can be followed and is reported has an exported name. -/
theorem exported_of_omitted {a : Alias} (supported : a.isSupported = true)
    (h : .alias a ∈ (omissions ds).map Prod.fst) : a.name ∈ (scope ds).exported := by
  rcases (mem_omissions distinct).1 h with ⟨-, -, unsupported⟩ | out
  · simp [Declaration.unsupported?, supported] at unsupported
  · exact Selection.mem_exportedNames.2 ⟨.alias a, out.accepted, by simp [Declaration.kind], rfl⟩

theorem smaller_survivors : Scope.Smaller (scope (survivors ds)) (scope ds) where
  targets name t h := by
    obtain ⟨a, mem, rest⟩ := (distinct.sublist (survivors_sublist ds)).target?_eq_some.1 h
    exact distinct.target?_eq_some.2 ⟨a, (survivors_sublist ds).subset mem, rest⟩
  hidden name hidden := by
    refine Option.ext fun t => ?_
    rw [scope, scope, distinct.target?_eq_some, (distinct.sublist (survivors_sublist ds)).target?_eq_some]
    refine exists_congr fun a => and_congr_left fun ⟨supported, named, _⟩ => ?_
    have kept : Declaration.alias a ∉ (omissions ds).map Prod.fst := fun omitted =>
      hidden (named ▸ exported_of_omitted distinct supported omitted)
    simp [survivors, kept]
  exported name h := by
    obtain ⟨r, hr, type, rfl⟩ := (mem_exported_survivors distinct).1 h
    exact Selection.mem_exportedNames.2 ⟨r.source, (emitted_resolves hr).1, type, rfl⟩

/-- What is emitted resolves among the survivors as it did among all. -/
theorem resolved?_survivors {r : Resolved} (hr : r ∈ emitted ds) :
    resolved? (scope (survivors ds)) r.source = some r := by
  refine resolved?_eq_some.2 ⟨rfl, ?_⟩
  refine (smaller_survivors distinct).resolveDeclaration (emitted_resolves hr).2 fun c hc exported => ?_
  have defined : c.baseType.name ∈ (of ds "").header.typeNames := exported_emitted hr hc exported
  exact (mem_exported_survivors distinct).2 (mem_header_typeNames.1 defined)

theorem candidates_survivors : candidates (survivors ds) = emitted ds := by
  rw [candidates, inSections_survivors distinct, List.filterMap_map]
  exact (List.filterMap_congr fun r hr => resolved?_survivors distinct hr).trans List.filterMap_some

theorem cycleReport?_survivors (hd : d ∈ (Selection.of (survivors ds)).inSections) :
    cycleReport? (scope (survivors ds)) d = none := by
  rw [inSections_survivors distinct] at hd
  obtain ⟨r, hr, rfl⟩ := List.mem_map.1 hd
  rw [cycleReport?, (resolved?_eq_some.1 (resolved?_survivors distinct hr)).2]

/-- Among the survivors nothing is left out. -/
theorem emitted_reports_survivors : emitted (survivors ds) = emitted ds ∧ reports (survivors ds) = [] := by
  have quiet : (Selection.of (survivors ds)).inSections.filterMap (cycleReport? (scope (survivors ds))) = [] :=
    List.filterMap_eq_nil_iff.2 fun d hd => cycleReport?_survivors distinct hd
  have names : cycleNames (survivors ds) = [] := by
    rw [cycleNames, filterMap_cycle?, quiet, List.map_nil, List.map_nil]
  have none (rs : List Resolved) : Resolved.dependents [] rs = [] := by
    refine List.eq_nil_iff_forall_not_mem.2 fun r hr => ?_
    obtain ⟨-, n, hn, -⟩ := Resolved.mem_dependents.1 hr
    exact List.not_mem_nil hn
  rw [emitted, reports, quiet, names, prune_done (none _), blamed_done (none _), candidates_survivors distinct]
  exact ⟨rfl, rfl⟩

theorem omissions_survivors : omissions (survivors ds) = [] := by
  rw [omissions, (emitted_reports_survivors distinct).2, List.append_nil,
    (distinct.sublist (survivors_sublist ds)).refused]
  refine List.filterMap_eq_nil_iff.2 fun d hd => ?_
  obtain ⟨mem, kept⟩ := List.mem_filter.1 hd
  have unreported : d ∉ (omissions ds).map Prod.fst := of_decide_eq_true kept
  rw [mem_omissions distinct] at unreported
  cases eligible : d.isEligible with
  | false => simp [Declaration.unsupportedReport?, eligible]
  | true =>
    have supported : d.unsupported? = none := by
      by_contra unsupported
      exact unreported (.inl ⟨mem, eligible, unsupported⟩)
    simp [Declaration.unsupportedReport?, supported]

end

/-- Where no two aliases that can be followed have one name and nothing is reported as a duplicate, the input without
the declarations that are reported gives the same header, and nothing is reported any more. -/
theorem survivors_clean (ds : List Declaration) (target : String)
    (aliases : ((supportedAliases ds).map Alias.name).Nodup)
    (unique : ∀ g ∈ (of ds target).diagnostics, g.cause.kind ≠ "duplicate-name") :
    (of ds target).diagnostics = (omissions ds).map (fun r => Diagnostic.of r.1 r.2) ∧
      (of (survivors ds) target).header = (of ds target).header ∧
      (of (survivors ds) target).diagnostics = [] := by
  have distinct : Distinct ds := by
    refine .of_unique aliases fun r hr => unique (.of r.1 r.2) ?_
    rw [diagnostics_omissions]
    exact List.mem_map_of_mem (List.mem_append_left _ hr)
  refine ⟨diagnostics_omissions ds target, ?_, ?_⟩
  · rw [header_of, header_of, (emitted_reports_survivors distinct).1]
  · rw [diagnostics_omissions, omissions_survivors distinct, List.map_nil]

/-- Of the six declarations of the fleet three are reported. The three others, one of them an alias of itself that is
not exported, give the same header. -/
theorem survivors_clean_fleet :
    ((supportedAliases fleet).map Alias.name).Nodup ∧
      (∀ g ∈ (of fleet "lib.h").diagnostics, g.cause.kind ≠ "duplicate-name") ∧
      (of fleet "lib.h").diagnostics.length = 3 ∧ (survivors fleet).length = 3 ∧
      (of (survivors fleet) "lib.h").header = (of fleet "lib.h").header ∧
      (of (survivors fleet) "lib.h").diagnostics = [] := by
  have aliases : ((supportedAliases fleet).map Alias.name).Nodup := by decide +kernel
  have kinds : (of fleet "lib.h").diagnostics.map (·.cause.kind) =
      ["unsupported-alias", "alias-cycle", "alias-cycle"] := by decide +kernel
  have unique : ∀ g ∈ (of fleet "lib.h").diagnostics, g.cause.kind ≠ "duplicate-name" := by
    intro g hg same
    have mem := List.mem_map_of_mem (f := fun g : Diagnostic => g.cause.kind) hg
    rw [kinds, same] at mem
    exact absurd mem (by decide)
  obtain ⟨-, header, diagnostics⟩ := survivors_clean fleet "lib.h" aliases unique
  refine ⟨aliases, unique, ?_, by decide +kernel, header, diagnostics⟩
  exact (List.length_map _).symm.trans (congrArg List.length kinds)

end CInterface.Assembly
