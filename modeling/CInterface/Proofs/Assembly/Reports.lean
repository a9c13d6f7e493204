import CInterface.Proofs.Assembly.LeftOut

/-!
# The reports of an assembly

Each accepted declaration is emitted or has one report, and reported are exactly those left out. A report that
blames a name comes after the report on a declaration recorded under that name. Among the diagnostics the reports
are those of the kind of a cycle.
-/

namespace CInterface.Assembly

open Source

variable {ds : List Declaration} {d : Declaration} {name : String}

theorem cycles_resolved_perm (scope : Scope) (ds : List Declaration) :
    ((ds.filterMap (cycleReport? scope)).map Prod.fst ++ (ds.filterMap (resolved? scope)).map (·.source)).Perm
      ds := by
  induction ds with
  | nil => exact List.Perm.refl _
  | cons d ds ih =>
    cases h : scope.resolveDeclaration d with
    | ok item =>
      have resolves : resolved? scope d = some ⟨d, item⟩ := by simp [resolved?, h]
      have quiet : cycleReport? scope d = none := by simp [cycleReport?, h]
      rw [List.filterMap_cons_none quiet, List.filterMap_cons_some resolves]
      exact List.perm_middle.trans (ih.cons d)
    | error c =>
      have fails : resolved? scope d = none := by simp [resolved?, h]
      have report : cycleReport? scope d = some (d, .aliasCycle c.chain) := by simp [cycleReport?, h]
      rw [List.filterMap_cons_some report, List.filterMap_cons_none fails]
      exact ih.cons d

/-- Everything accepted is reported or emitted. -/
theorem reports_perm (ds : List Declaration) :
    ((reports ds).map Prod.fst ++ (emitted ds).map (·.source)).Perm (Selection.of ds).inSections := by
  have rounds := ((prune_perm (cycleNames ds) (candidates ds)).map (·.source)).append_left
    (((Selection.of ds).inSections.filterMap (cycleReport? (scope ds))).map Prod.fst)
  refine List.Perm.trans ?_ (rounds.trans (cycles_resolved_perm (scope ds) _))
  simp only [reports, emitted, List.map_append, List.map_map, List.append_assoc]
  exact List.Perm.refl _

theorem reports_append_emitted_nodup (ds : List Declaration) :
    ((reports ds).map Prod.fst ++ (emitted ds).map (·.source)).Nodup :=
  (reports_perm ds).nodup_iff.2 (List.Nodup.of_map _ (Selection.inSections_headerName_nodup ds))

theorem reports_nodup (ds : List Declaration) : ((reports ds).map Prod.fst).Nodup :=
  (List.nodup_append'.1 (reports_append_emitted_nodup ds)).1

theorem mem_reports : d ∈ (reports ds).map Prod.fst ↔ LeftOut ds d := by
  have mem : d ∈ (reports ds).map Prod.fst ∨ d ∈ (emitted ds).map (·.source) ↔
      d ∈ (Selection.of ds).accepted := by
    rw [← List.mem_append, (reports_perm ds).mem_iff, Selection.mem_inSections]
  have disjoint := (List.nodup_append'.1 (reports_append_emitted_nodup ds)).2.2
  constructor
  · intro hd
    by_contra hl
    exact disjoint hd (mem_emitted_source.2 ⟨mem.1 (.inl hd), hl⟩)
  · intro hl
    rcases mem.2 hl.accepted with hd | hd
    · exact hd
    · exact absurd hl (mem_emitted_source.1 hd).2

theorem blamed_resolves {b : Resolved × String} (h : b ∈ blamed (cycleNames ds) (candidates ds)) :
    (scope ds).resolveDeclaration b.1.source = .ok b.1.item := by
  have mem : b.1 ∈ (blamed (cycleNames ds) (candidates ds)).map Prod.fst := List.mem_map.2 ⟨b, h, rfl⟩
  have hb := (prune_perm (cycleNames ds) (candidates ds)).mem_iff.1 (List.mem_append_left _ mem)
  exact (mem_candidates.1 hb).2

/-- A declaration that is blamed on a name uses it, and the name is that of an earlier report. -/
theorem reports_order {before after : List (Declaration × Diagnostic.Cause)}
    (h : reports ds = before ++ (d, .dependency name) :: after) :
    Uses ds d name ∧ ∃ e ∈ before.map Prod.fst, recordedName ds e = name := by
  rcases append_eq_split h with ⟨rest, hb⟩ | ⟨rest, rfl, hl⟩
  · -- the reports on cycles blame no name
    have mem : (d, .dependency name) ∈ (Selection.of ds).inSections.filterMap (cycleReport? (scope ds)) := by
      simp [hb]
    obtain ⟨e, -, he⟩ := List.mem_filterMap.1 mem
    cases hres : (scope ds).resolveDeclaration e <;> simp [cycleReport?, hres] at he
  · obtain ⟨earlier, others, hs, rfl, ho⟩ := List.map_eq_append_iff.1 hl
    obtain ⟨⟨r, n⟩, later, rfl, same, rfl⟩ := List.map_eq_cons_iff.1 ho
    cases same
    obtain ⟨use, hn⟩ := blamed_order hs
    refine ⟨⟨r.item, blamed_resolves (hs ▸ List.mem_append_right _ List.mem_cons_self), use⟩, ?_⟩
    rw [List.map_append]
    rcases hn with hn | ⟨e, he, rfl⟩
    · obtain ⟨e, he, c, hc, rfl⟩ := mem_cycleNames.1 hn
      refine ⟨e, List.mem_append_left _ (List.mem_map.2 ⟨(e, .aliasCycle c.chain), ?_, rfl⟩),
        recordedName_error hc⟩
      exact List.mem_filterMap.2 ⟨e, Selection.mem_inSections.2 he, by simp [cycleReport?, hc]⟩
    · obtain ⟨b, hb, rfl⟩ := List.mem_map.1 he
      have ok := blamed_resolves (hs ▸ List.mem_append_left _ hb)
      refine ⟨b.1.source, List.mem_append_right _ ?_, recordedName_ok ok⟩
      exact List.mem_map.2 ⟨_, List.mem_map.2 ⟨b, hb, rfl⟩, rfl⟩

theorem reports_kind {r : Declaration × Diagnostic.Cause} (h : r ∈ reports ds) : r.2.kind = "alias-cycle" := by
  rcases List.mem_append.1 h with h | h
  · obtain ⟨e, -, he⟩ := List.mem_filterMap.1 h
    cases hres : (scope ds).resolveDeclaration e with
    | ok item => simp [cycleReport?, hres] at he
    | error c =>
      simp only [cycleReport?, hres, Option.some.injEq] at he
      subst he
      rfl
  · obtain ⟨b, -, rfl⟩ := List.mem_map.1 h
    rfl

theorem judge_cons (taken : List Declaration) (d : Declaration) (ds : List Declaration) :
    ∃ later, judge taken (d :: ds) = (d, verdict taken d) :: judge later ds := by
  cases hv : verdict taken d with
  | accepted => exact ⟨taken ++ [d], by simp only [judge, hv]⟩
  | internal => exact ⟨taken, by simp only [judge, hv]⟩
  | refused cause => exact ⟨taken, by simp only [judge, hv]⟩

theorem mem_judge {taken ds : List Declaration} {p : Declaration × Verdict} (h : p ∈ judge taken ds) :
    ∃ earlier, p.2 = verdict earlier p.1 := by
  induction ds generalizing taken with
  | nil => cases h
  | cons d ds ih =>
    obtain ⟨later, step⟩ := judge_cons taken d ds
    rw [step] at h
    rcases List.mem_cons.1 h with rfl | h
    · exact ⟨taken, rfl⟩
    · exact ih h

/-- A selection refuses nothing for a cycle. -/
theorem selection_diagnostics_kind {g : Diagnostic} (h : g ∈ (Selection.of ds).diagnostics) :
    g.cause.kind ≠ "alias-cycle" := by
  obtain ⟨⟨d, v⟩, hj, hg⟩ := List.mem_filterMap.1 h
  obtain ⟨taken, hv⟩ := mem_judge hj
  change v = verdict taken d at hv
  cases v with
  | internal => cases hg
  | accepted => cases hg
  | refused cause =>
    cases hg
    rw [verdict] at hv
    split at hv
    · cases hv
    · split at hv
      · cases hv
        simp [Diagnostic.of, Diagnostic.Cause.kind]
      · split at hv
        · cases hv
          simp [Diagnostic.of, Diagnostic.Cause.kind]
        · cases hv

theorem cycle_diagnostics_of (ds : List Declaration) (target : String) :
    (of ds target).diagnostics.filter (·.cause.kind == "alias-cycle") =
      (reports ds).map fun r => Diagnostic.of r.1 r.2 := by
  rw [diagnostics_of, List.filter_append, List.filter_eq_nil_iff.2, List.nil_append, List.filter_eq_self]
  · intro g hg
    obtain ⟨r, hr, rfl⟩ := List.mem_map.1 hg
    simpa [Diagnostic.of] using reports_kind hr
  · intro g hg
    simpa using selection_diagnostics_kind hg

end CInterface.Assembly
