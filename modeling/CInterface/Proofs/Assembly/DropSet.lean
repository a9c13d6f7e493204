import CInterface.Proofs.Assembly.Closure

/-!
# The drop set

A cycle of aliases implicates the declarations that run into it and those that use an implicated type. All of them
are left out and reported. More is left out only where the name under which a function is recorded is also the name
of a type that somebody uses.
-/

namespace CInterface.Assembly

open Source

variable {ds : List Declaration} {d e f : Declaration} {target name : String}

/-- The least set of accepted declarations that holds those running into a cycle, and those using the name of a
type that is a member. -/
inductive Implicated (ds : List Declaration) : Declaration → Prop
  | cyclic {d : Declaration} {c : Cycle} (hd : d ∈ (Selection.of ds).accepted)
      (h : (scope ds).resolveDeclaration d = .error c) : Implicated ds d
  | dependent {d e : Declaration} {item : Item} {t : CType} (hd : d ∈ (Selection.of ds).accepted)
      (h : (scope ds).resolveDeclaration d = .ok item) (ht : t ∈ item.references)
      (hc : t.baseType.isIncomplete = false) (he : Implicated ds e) (hk : e.kind ≠ .function)
      (hn : t.baseType.name = e.name) : Implicated ds d

/-- What is blamed on a name comes after the report on a type of that name. -/
def BlamesTypes (ds : List Declaration) : Prop :=
  ∀ (before after : List (Declaration × Diagnostic.Cause)) (d : Declaration) (name : String),
    reports ds = before ++ (d, .dependency name) :: after →
      ∃ e ∈ before.map Prod.fst, e.kind ≠ .function ∧ e.name = name

/-- An assembly leaves out and reports exactly what is implicated, each declaration once, and blames types that have
been reported before. -/
structure Exact (ds : List Declaration) (target : String) : Prop where
  emitted : ∀ item, item ∈ (of ds target).header.items ↔
    ∃ d ∈ (Selection.of ds).accepted, ¬ Implicated ds d ∧ (scope ds).resolveDeclaration d = .ok item
  distinct : ((of ds target).header.items.map Item.name).Nodup
  diagnostics : (of ds target).diagnostics.filter (·.cause.kind == "alias-cycle") =
    (reports ds).map fun r => Diagnostic.of r.1 r.2
  reported : ∀ d, d ∈ (reports ds).map Prod.fst ↔ Implicated ds d
  once : ((reports ds).map Prod.fst).Nodup
  earlier : BlamesTypes ds

theorem Implicated.leftOut (h : Implicated ds d) : LeftOut ds d := by
  induction h with
  | cyclic hd h => exact .cyclic hd h
  | @dependent d e item t hd h ht _ _ hk hn ih =>
    exact .dependent hd ih ⟨item, h, t, ht, hn.trans (recordedName_type hk).symm⟩

theorem Implicated.of_uses (hd : d ∈ (Selection.of ds).accepted) (he : Implicated ds e)
    (hk : e.kind ≠ .function) (use : Uses ds d e.name) : Implicated ds d := by
  obtain ⟨item, h, t, ht, hn⟩ := use
  have exported : t.baseType.name ∈ (scope ds).exported :=
    Selection.mem_exportedNames.2 ⟨e, he.leftOut.accepted, hk, hn.symm⟩
  cases Scope.references_origin h ht with
  | primitive _ _ hc => exact .dependent hd h ht hc he hk hn
  | exported _ hc => exact .dependent hd h ht hc he hk hn
  | unknown he _ => exact absurd exported he

/-- Nothing else is left out if nothing else uses the name under which an implicated function is recorded. -/
theorem leftOut_iff_implicated :
    (∀ d, LeftOut ds d ↔ Implicated ds d) ↔
      ∀ d ∈ (Selection.of ds).accepted, ¬ Implicated ds d →
        ∀ f, Implicated ds f → f.kind = .function → ¬ Uses ds d (recordedName ds f) := by
  constructor
  · intro h d hd hi f hf _ use
    exact hi ((h d).1 (.dependent hd hf.leftOut use))
  · intro h d
    refine ⟨fun hl => ?_, Implicated.leftOut⟩
    induction hl with
    | cyclic hd hc => exact .cyclic hd hc
    | @dependent d e hd _ use ih =>
      by_contra hi
      by_cases hk : e.kind = .function
      · exact h d hd hi e ih hk use
      · exact hi (ih.of_uses hd hk (recordedName_type hk ▸ use))

theorem reports_cycle {chain : List String} (h : (d, .aliasCycle chain) ∈ reports ds) :
    d ∈ (Selection.of ds).accepted ∧ (scope ds).resolveDeclaration d = .error ⟨chain⟩ := by
  rcases List.mem_append.1 h with h | h
  · obtain ⟨e, he, hr⟩ := List.mem_filterMap.1 h
    cases hres : (scope ds).resolveDeclaration e with
    | ok item => simp [cycleReport?, hres] at hr
    | error c =>
      simp only [cycleReport?, hres, Option.some.injEq] at hr
      cases hr
      exact ⟨Selection.mem_inSections.1 he, hres⟩
  · obtain ⟨b, -, hb⟩ := List.mem_map.1 h
    cases hb

theorem reports_cause {cause : Diagnostic.Cause} (h : (d, cause) ∈ reports ds) :
    (∃ chain, cause = .aliasCycle chain) ∨ ∃ name, cause = .dependency name := by
  have kind := reports_kind h
  cases cause with
  | unsupportedAlias a => simp [Diagnostic.Cause.kind] at kind
  | duplicateName k n => simp [Diagnostic.Cause.kind] at kind
  | aliasCycle chain => exact .inl ⟨chain, rfl⟩
  | dependency name => exact .inr ⟨name, rfl⟩

/-- If all blame falls on types reported before, everything reported is implicated. -/
theorem BlamesTypes.implicated (earlier : BlamesTypes ds) (before after : List (Declaration × Diagnostic.Cause))
    (cause : Diagnostic.Cause) (h : reports ds = before ++ (d, cause) :: after) : Implicated ds d := by
  -- on the number of reports before this one
  induction hn : before.length using Nat.strongRecOn generalizing before d cause after with
  | ind n ih =>
    have mem : (d, cause) ∈ reports ds := by simp [h]
    have accepted : d ∈ (Selection.of ds).accepted := (mem_reports.1 (List.mem_map.2 ⟨_, mem, rfl⟩)).accepted
    rcases reports_cause mem with ⟨chain, rfl⟩ | ⟨name, rfl⟩
    · exact .cyclic accepted (reports_cycle mem).2
    · obtain ⟨e, he, hk, rfl⟩ := earlier before after d name h
      obtain ⟨⟨e, cause⟩, hb, rfl⟩ := List.mem_map.1 he
      obtain ⟨first, rest, rfl⟩ := List.append_of_mem hb
      have shorter : first.length < n := by
        rw [← hn, List.length_append, List.length_cons]
        omega
      have split : reports ds = first ++ (e, cause) :: (rest ++ (d, .dependency e.name) :: after) := by
        rw [h, List.append_assoc, List.cons_append]
      have implicated := ih first.length shorter first _ cause split rfl
      exact implicated.of_uses accepted hk (reports_order h).1

theorem exact_of_leftOut (same : ∀ d, LeftOut ds d ↔ Implicated ds d) (earlier : BlamesTypes ds) :
    Exact ds target := by
  refine ⟨?_, header_names_nodup ds target, cycle_diagnostics_of ds target, ?_, reports_nodup ds, earlier⟩
  · intro item
    rw [mem_header_items]
    constructor
    · rintro ⟨r, hr, rfl⟩
      obtain ⟨hd, ok⟩ := emitted_resolves hr
      exact ⟨r.source, hd, fun hi => (mem_emitted.1 hr).2 ((same _).2 hi), ok⟩
    · rintro ⟨d, hd, hi, ok⟩
      exact ⟨⟨d, item⟩, mem_emitted.2 ⟨mem_candidates.2 ⟨hd, ok⟩, fun hl => hi ((same _).1 hl)⟩, rfl⟩
  · intro d
    rw [mem_reports]
    exact same d

/-- What an assembly leaves out and reports is exact but for the names of functions. Everything implicated is
reported. Nothing else is, precisely if no other accepted declaration uses the name under which an implicated
function is recorded: its own if it runs into a cycle, its symbol otherwise. All blame falls on types reported before,
precisely if a name under which a function was reported is blamed only after a type of that name. -/
theorem exact_iff (ds : List Declaration) (target : String) :
    (∀ d, Implicated ds d → d ∈ (reports ds).map Prod.fst) ∧
      ((∀ d, d ∈ (reports ds).map Prod.fst ↔ Implicated ds d) ↔
        ∀ d ∈ (Selection.of ds).accepted, ¬ Implicated ds d →
          ∀ f, Implicated ds f → f.kind = .function → ¬ Uses ds d (recordedName ds f)) ∧
      (Exact ds target ↔
        ∀ (before after : List (Declaration × Diagnostic.Cause)) (d f : Declaration),
          reports ds = before ++ (d, .dependency (recordedName ds f)) :: after →
            f ∈ before.map Prod.fst → f.kind = .function →
              ∃ e ∈ before.map Prod.fst, e.kind ≠ .function ∧ e.name = recordedName ds f) ∧
      ((∀ d ∈ (Selection.of ds).accepted, ∀ f, Implicated ds f → f.kind = .function →
          ¬ Uses ds d (recordedName ds f)) → Exact ds target) := by
  refine ⟨fun d hi => mem_reports.2 hi.leftOut, ?_, ?_, ?_⟩
  · simp only [mem_reports]
    exact leftOut_iff_implicated
  · constructor
    · intro h before after d f split _ _
      exact h.earlier before after d _ split
    · intro h
      have earlier : BlamesTypes ds := by
        intro before after d name split
        obtain ⟨-, e, he, rfl⟩ := reports_order split
        by_cases hk : e.kind = .function
        · exact h before after d e split he hk
        · exact ⟨e, he, hk, (recordedName_type hk).symm⟩
      refine exact_of_leftOut (fun d => ⟨fun hl => ?_, Implicated.leftOut⟩) earlier
      obtain ⟨⟨d, cause⟩, hr, rfl⟩ := List.mem_map.1 (mem_reports.2 hl)
      obtain ⟨before, after, split⟩ := List.append_of_mem hr
      exact earlier.implicated before after cause split
  · intro h
    have same := leftOut_iff_implicated.2 fun d hd _ f hf hk => h d hd f hf hk
    refine exact_of_leftOut same ?_
    intro before after d name split
    obtain ⟨use, e, he, rfl⟩ := reports_order split
    have implicated : Implicated ds e := by
      rw [← same, ← mem_reports, split, List.map_append]
      exact List.mem_append_left _ he
    have accepted : d ∈ (Selection.of ds).accepted := by
      refine (mem_reports.1 (List.mem_map.2 ⟨(d, .dependency (recordedName ds e)), ?_, rfl⟩)).accepted
      simp [split]
    have hk : e.kind ≠ .function := fun hk => h d accepted e implicated hk use
    exact ⟨e, he, hk, (recordedName_type hk).symm⟩

/-- A function that runs into a cycle under the name of a struct, and one that uses the struct. -/
def sharedName : List Declaration :=
  [.alias ⟨"Loop", .named "Loop" [], [], false, none⟩,
    .struct ⟨"Engine", [⟨"speed", .primitive .i32⟩], true, true, none⟩,
    .function ⟨"Engine", [⟨"x", .named "Loop" []⟩], .primitive .void, true, true, true, some "engine_make", none⟩,
    .function ⟨"engine_run", [⟨"e", .pointer true (.named "Engine" [])⟩], .primitive .void, true, true, true, none,
      none⟩]

/-- Only the function that runs into the cycle is implicated. -/
theorem implicated_sharedName (h : Implicated sharedName d) : d = sharedName[2] := by
  induction h with
  | @cyclic d c hd h =>
    have cyclic : (Selection.of sharedName).accepted.filter
        (fun d => !((scope sharedName).resolveDeclaration d).isOk) = [sharedName[2]] := by decide +kernel
    rw [← List.mem_singleton, ← cyclic, List.mem_filter]
    exact ⟨hd, by simp [h, Except.isOk, Except.toBool]⟩
  | dependent _ _ _ _ _ hk _ ih => exact absurd (ih ▸ rfl) hk

theorem not_exact_sharedName : ¬ Exact sharedName "lib.h" := by
  intro h
  have items : (of sharedName "lib.h").header.items.map Item.name = ["Engine"] := by decide +kernel
  have accepted : (Selection.of sharedName).accepted = sharedName.tail := by decide +kernel
  have kept : Item.prototype ⟨"engine_run", .ofName "void", [⟨"e", .pointer (.ofName "Engine") []⟩], none⟩ ∈
      (of sharedName "lib.h").header.items := by
    refine (h.emitted _).2 ⟨sharedName[3], ?_, ?_, ?_⟩
    · rw [accepted]
      simp [sharedName]
    · intro hi
      exact absurd (implicated_sharedName hi) (by decide)
    · decide +kernel
  have named := List.mem_map_of_mem kept (f := Item.name)
  rw [items] at named
  exact absurd named (by decide)

end CInterface.Assembly
