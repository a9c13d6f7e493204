import CInterface.Proofs.Assembly.Pruning
import CInterface.Proofs.Resolution.BaseTypes
import CInterface.Proofs.Selection.DistinctNames

/-!
# What an assembly leaves out

Every accepted declaration is emitted or reported, once. Left out is, besides the declarations that run into a
cycle, everything that uses the name under which something left out is recorded: its own name if it runs into a
cycle, its name in the header otherwise.
-/

namespace CInterface.Assembly

open Source

variable {ds : List Declaration} {d : Declaration} {item : Item} {name : String}

/-- What names mean while a list of declarations is assembled. -/
def scope (ds : List Declaration) : Scope := .ofSelection (.of ds)

/-- The accepted declarations that resolve. -/
def candidates (ds : List Declaration) : List Resolved :=
  (Selection.of ds).inSections.filterMap (resolved? (scope ds))

/-- The names dropped at the start. -/
def cycleNames (ds : List Declaration) : List String :=
  ((Selection.of ds).inSections.filterMap (cycle? (scope ds))).map (·.name)

/-- The declarations that are emitted. -/
def emitted (ds : List Declaration) : List Resolved := (prune (cycleNames ds) (candidates ds)).1

/-- A declaration that runs into a cycle, with that cause. -/
def cycleReport? (scope : Scope) (d : Declaration) : Option (Declaration × Diagnostic.Cause) :=
  match scope.resolveDeclaration d with
  | .ok _ => none
  | .error c => some (d, .aliasCycle c.chain)

section

variable {scope other : Scope} (h : scope.resolveDeclaration d = other.resolveDeclaration d)

include h

theorem resolved?_congr : resolved? scope d = resolved? other d := by rw [resolved?, h, resolved?]

theorem cycle?_congr : cycle? scope d = cycle? other d := by rw [cycle?, h, cycle?]

theorem cycleReport?_congr : cycleReport? scope d = cycleReport? other d := by rw [cycleReport?, h, cycleReport?]

end

/-- The declarations that are left out, each with its cause, in the order of the diagnostics. -/
def reports (ds : List Declaration) : List (Declaration × Diagnostic.Cause) :=
  (Selection.of ds).inSections.filterMap (cycleReport? (scope ds)) ++
    (blamed (cycleNames ds) (candidates ds)).map fun b => (b.1.source, .dependency b.2)

theorem header_of (ds : List Declaration) (target : String) :
    (of ds target).header = Header.ofItems target ((emitted ds).map (·.item)) := rfl

/-- What is reported: by the selection, on the way through the accepted declarations, and round by round. -/
theorem diagnostics_parts (ds : List Declaration) (target : String) :
    (of ds target).diagnostics =
      (Selection.of ds).diagnostics ++ (Selection.of ds).inSections.filterMap (cycle? (scope ds)) ++
        (prune (cycleNames ds) (candidates ds)).2 := rfl

/-- What is told of: by the selection, on the way through the accepted declarations, and round by round. -/
theorem events_parts (ds : List Declaration) (target : String) :
    (of ds target).events =
      (Selection.of ds).events ++ (Selection.of ds).inSections.flatMap (declarationEvents (scope ds)) ++
        (prune (cycleNames ds) (candidates ds)).2.map (.skipping .generation) := rfl

theorem filterMap_cycle? (scope : Scope) (ds : List Declaration) :
    ds.filterMap (cycle? scope) = (ds.filterMap (cycleReport? scope)).map fun r => Diagnostic.of r.1 r.2 := by
  rw [List.map_filterMap]
  congr 1
  funext d
  cases h : scope.resolveDeclaration d <;> simp [cycle?, cycleReport?, h]

theorem diagnostics_of (ds : List Declaration) (target : String) :
    (of ds target).diagnostics =
      (Selection.of ds).diagnostics ++ (reports ds).map fun r => Diagnostic.of r.1 r.2 := by
  rw [diagnostics_parts, filterMap_cycle?, prune_diagnostics, reports, List.map_append, List.map_map,
    List.append_assoc]
  rfl

theorem resolved?_eq_some {scope : Scope} {r : Resolved} :
    resolved? scope d = some r ↔ d = r.source ∧ scope.resolveDeclaration d = .ok r.item := by
  obtain ⟨source, form⟩ := r
  cases h : scope.resolveDeclaration d with
  | ok item => simp [resolved?, h]
  | error c => simp [resolved?, h]

theorem mem_candidates {r : Resolved} :
    r ∈ candidates ds ↔
      r.source ∈ (Selection.of ds).accepted ∧ (scope ds).resolveDeclaration r.source = .ok r.item := by
  simp only [candidates, List.mem_filterMap, resolved?_eq_some, Selection.mem_inSections]
  constructor
  · rintro ⟨d, hd, rfl, h⟩
    exact ⟨hd, h⟩
  · rintro ⟨hd, h⟩
    exact ⟨r.source, hd, rfl, h⟩

theorem mem_cycleNames :
    name ∈ cycleNames ds ↔
      ∃ d ∈ (Selection.of ds).accepted, ∃ c, (scope ds).resolveDeclaration d = .error c ∧ d.name = name := by
  simp only [cycleNames, List.mem_map, List.mem_filterMap, Selection.mem_inSections]
  constructor
  · rintro ⟨g, ⟨d, hd, hg⟩, rfl⟩
    cases h : (scope ds).resolveDeclaration d with
    | ok item => simp [cycle?, h] at hg
    | error c =>
      simp only [cycle?, h, Option.some.injEq] at hg
      exact ⟨d, hd, c, h, hg ▸ rfl⟩
  · rintro ⟨d, hd, c, h, rfl⟩
    exact ⟨.of d (.aliasCycle c.chain), ⟨d, hd, by simp [cycle?, h]⟩, rfl⟩

/-- The name under which a declaration is recorded once it is left out. -/
def recordedName (ds : List Declaration) (d : Declaration) : String :=
  match (scope ds).resolveDeclaration d with
  | .ok item => item.name
  | .error _ => d.name

theorem recordedName_ok (h : (scope ds).resolveDeclaration d = .ok item) : recordedName ds d = item.name := by
  rw [recordedName, h]

theorem recordedName_error {c : Cycle} (h : (scope ds).resolveDeclaration d = .error c) :
    recordedName ds d = d.name := by
  rw [recordedName, h]

theorem recordedName_type (h : d.kind ≠ .function) : recordedName ds d = d.name := by
  cases hd : (scope ds).resolveDeclaration d with
  | error c => exact recordedName_error hd
  | ok item =>
    rw [recordedName_ok hd, (Scope.resolveDeclaration_ok hd).2.1]
    exact Declaration.headerName_eq_name h

/-- A declaration uses a name if it resolves and the name is the base of one of its types. -/
def Uses (ds : List Declaration) (d : Declaration) (name : String) : Prop :=
  ∃ item, (scope ds).resolveDeclaration d = .ok item ∧ ∃ t ∈ item.references, t.baseType.name = name

/-- The least set of accepted declarations that holds those running into a cycle, and those using the name under
which a member is recorded. -/
inductive LeftOut (ds : List Declaration) : Declaration → Prop
  | cyclic {d : Declaration} {c : Cycle} (hd : d ∈ (Selection.of ds).accepted)
      (h : (scope ds).resolveDeclaration d = .error c) : LeftOut ds d
  | dependent {d e : Declaration} (hd : d ∈ (Selection.of ds).accepted) (he : LeftOut ds e)
      (use : Uses ds d (recordedName ds e)) : LeftOut ds d

theorem LeftOut.accepted (h : LeftOut ds d) : d ∈ (Selection.of ds).accepted := by
  cases h with
  | cyclic hd _ => exact hd
  | dependent hd _ _ => exact hd

theorem falls_iff_leftOut {r : Resolved} (hr : r ∈ candidates ds) :
    Resolved.Falls (cycleNames ds) (candidates ds) r ↔ LeftOut ds r.source := by
  constructor
  · intro h
    clear hr
    induction h with
    | @direct r name hr hn use =>
      obtain ⟨hd, ok⟩ := mem_candidates.1 hr
      obtain ⟨e, he, c, hc, rfl⟩ := mem_cycleNames.1 hn
      exact .dependent hd (.cyclic he hc) ⟨r.item, ok, (recordedName_error hc).symm ▸ use⟩
    | @step r e hr he use ih =>
      obtain ⟨hd, ok⟩ := mem_candidates.1 hr
      have same := recordedName_ok (mem_candidates.1 he.mem).2
      exact .dependent hd ih ⟨r.item, ok, same.symm ▸ use⟩
  · intro h
    obtain ⟨source, form⟩ := r
    change LeftOut ds source at h
    induction h generalizing form with
    | cyclic _ hc =>
      have ok := (mem_candidates.1 hr).2
      cases hc.symm.trans ok
    | @dependent d e hd he use ih =>
      obtain ⟨item, ok, use⟩ := use
      cases ok.symm.trans (mem_candidates.1 hr).2
      -- what is used was dropped at the start or falls in turn
      cases hres : (scope ds).resolveDeclaration e with
      | error c =>
        rw [recordedName_error hres] at use
        exact .direct hr (mem_cycleNames.2 ⟨e, he.accepted, c, hres, rfl⟩) use
      | ok form =>
        rw [recordedName_ok hres] at use
        exact .step hr (ih form (mem_candidates.2 ⟨he.accepted, hres⟩)) use

theorem mem_emitted {r : Resolved} : r ∈ emitted ds ↔ r ∈ candidates ds ∧ ¬ LeftOut ds r.source := by
  rw [emitted, mem_prune_kept]
  constructor
  · rintro ⟨hr, h⟩
    exact ⟨hr, fun hl => h ((falls_iff_leftOut hr).2 hl)⟩
  · rintro ⟨hr, h⟩
    exact ⟨hr, fun hf => h ((falls_iff_leftOut hr).1 hf)⟩

theorem mem_emitted_source : d ∈ (emitted ds).map (·.source) ↔ d ∈ (Selection.of ds).accepted ∧ ¬ LeftOut ds d := by
  rw [List.mem_map]
  constructor
  · rintro ⟨r, hr, rfl⟩
    obtain ⟨hc, hl⟩ := mem_emitted.1 hr
    exact ⟨(mem_candidates.1 hc).1, hl⟩
  · rintro ⟨hd, hl⟩
    cases hres : (scope ds).resolveDeclaration d with
    | error c => exact absurd (.cyclic hd hres) hl
    | ok form => exact ⟨⟨d, form⟩, mem_emitted.2 ⟨mem_candidates.2 ⟨hd, hres⟩, hl⟩, rfl⟩

/-- Nothing emitted uses the name under which something left out is recorded. -/
theorem emitted_unused {r : Resolved} (hr : r ∈ emitted ds) {e : Declaration} (he : LeftOut ds e) :
    ¬ r.Uses (recordedName ds e) := by
  intro use
  obtain ⟨hc, hl⟩ := mem_emitted.1 hr
  obtain ⟨hd, ok⟩ := mem_candidates.1 hc
  exact hl (.dependent hd he ⟨r.item, ok, use⟩)

section

variable {ds' : List Declaration} (accepted : (Selection.of ds).accepted = (Selection.of ds').accepted)

include accepted

theorem inSections_congr : (Selection.of ds).inSections = (Selection.of ds').inSections := by
  simp only [Selection.inSections, Selection.ofKind, accepted]

theorem exported_congr : (scope ds).exported = (scope ds').exported :=
  congrArg (fun ds => (ds.filter (·.kind != .function)).map (·.name)) accepted

variable (alike : ∀ e ∈ (Selection.of ds).accepted,
  (scope ds).resolveDeclaration e = (scope ds').resolveDeclaration e)

include alike

/-- What is emitted and reported depends on what is accepted and how it resolves. -/
theorem emitted_reports_congr : emitted ds = emitted ds' ∧ reports ds = reports ds' := by
  have resolved : candidates ds = candidates ds' := by
    rw [candidates, candidates, ← inSections_congr accepted]
    exact List.filterMap_congr fun e he => resolved?_congr (alike e (Selection.mem_inSections.1 he))
  have cycles : cycleNames ds = cycleNames ds' := by
    rw [cycleNames, cycleNames, ← inSections_congr accepted]
    exact congrArg _ (List.filterMap_congr fun e he => cycle?_congr (alike e (Selection.mem_inSections.1 he)))
  have own : (Selection.of ds).inSections.filterMap (cycleReport? (scope ds)) =
      (Selection.of ds').inSections.filterMap (cycleReport? (scope ds')) := by
    rw [← inSections_congr accepted]
    exact List.filterMap_congr fun e he => cycleReport?_congr (alike e (Selection.mem_inSections.1 he))
  rw [emitted, reports, own, cycles, resolved]
  exact ⟨rfl, rfl⟩

end

end CInterface.Assembly
