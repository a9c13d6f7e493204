import CInterface.Proofs.Assembly.Closure
import CInterface.Proofs.Selection.Refusals
import Mathlib.Data.List.FinRange

/-!
# Every eligible declaration is accounted for

An assembly loses, repeats, reorders and alters nothing. The places of the eligible declarations in the input are
those of the emitted ones and those of the reported ones, each once. The sections of the header show the emitted
declarations in the order of the input, and each diagnostic is warned of, in the order of the diagnostics.
-/

namespace CInterface

open Source

theorem filter_mem_of_sublist {α : Type} [DecidableEq α] {xs ys : List α} (h : xs.Sublist ys) (nodup : ys.Nodup) :
    ys.filter (· ∈ xs) = xs := by
  induction h with
  | slnil => rfl
  | @cons xs ys y h ih =>
    obtain ⟨fresh, nodup⟩ := List.nodup_cons.1 nodup
    rw [List.filter_cons_of_neg (by simpa using fun hy => fresh (h.subset hy)), ih nodup]
  | @cons_cons xs ys y h ih =>
    obtain ⟨fresh, nodup⟩ := List.nodup_cons.1 nodup
    rw [List.filter_cons_of_pos (by simp)]
    refine congrArg (y :: ·) ((List.filter_congr fun z hz => ?_).trans (ih nodup))
    have other : z ≠ y := fun same => fresh (same ▸ hz)
    simp [other]

theorem exists_perm_map {α β : Type} {f : α → β} {xs : List α} {ys : List β} (h : (xs.map f).Perm ys) :
    ∃ zs, xs.Perm zs ∧ zs.map f = ys := by
  have images : List.Forall₂ (fun x y => f x = y) xs (xs.map f) :=
    List.forall₂_map_right_iff.2 (List.forall₂_same.2 fun _ _ => rfl)
  have reordered : Relation.Comp (List.Forall₂ fun x y => f x = y) List.Perm xs ys := ⟨_, images, h⟩
  rw [List.forall₂_comp_perm_eq_perm_comp_forall₂] at reordered
  obtain ⟨zs, perm, images⟩ := reordered
  refine ⟨zs, perm, ?_⟩
  rw [← List.forall₂_eq_eq_eq, List.forall₂_map_left_iff]
  exact images

/-- If the members of a list with some property are kept, in order, or given away, the places of the list with that
property are divided into places of what is kept, in order, and places of what is given away. -/
theorem exists_places {α : Type} {p : α → Bool} {xs kept away : List α} (order : kept.Sublist (xs.filter p))
    (perm : (kept ++ away).Perm (xs.filter p)) :
    ∃ ks as : List (Fin xs.length), ks.map xs.get = kept ∧ as.map xs.get = away ∧ ks.Pairwise (· < ·) ∧
      (ks ++ as).Nodup ∧ ∀ i, i ∈ ks ++ as ↔ p (xs.get i) = true := by
  -- equal members are told apart by their places, of which each is there once
  let places := (List.finRange xs.length).filter (p ∘ xs.get)
  have members : places.map xs.get = xs.filter p := by
    rw [← List.filter_map, List.map_get_finRange]
  rw [← members] at order perm
  obtain ⟨ks, sub, rfl⟩ := List.sublist_map_iff.1 order
  obtain ⟨rest, split⟩ := sub.exists_perm_append
  have same : (rest.map xs.get).Perm away := by
    rw [← List.perm_append_left_iff (ks.map xs.get), ← List.map_append]
    exact (split.map _).symm.trans perm.symm
  obtain ⟨as, reordered, rfl⟩ := exists_perm_map same
  have all : (ks ++ as).Perm places := (reordered.symm.append_left ks).trans split.symm
  refine ⟨ks, as, rfl, rfl, ?_, ?_, fun i => ?_⟩
  · exact (List.pairwise_lt_finRange _).sublist (sub.trans List.filter_sublist)
  · exact all.nodup_iff.2 ((List.nodup_finRange _).filter _)
  · rw [all.mem_iff, List.mem_filter]
    simp

/-- What a declaration of a header has from its source: kind, name or symbol and place, the names of its parts in
order, and the numbers of an enumeration. -/
def Source.Declaration.ShownBy : Declaration → Item → Prop
  | .alias a, .typedef t => t.name = a.name ∧ t.location = a.location
  | .enumeration e, .enumeration t =>
    t.name = e.name ∧ t.values.map (fun v => (v.name, v.value)) = e.variants.map (fun v => (v.name, v.value)) ∧
      t.location = e.location
  | .struct s, .struct t =>
    t.name = s.name ∧ t.fields.map Slot.name = s.fields.map Member.name ∧ t.location = s.location
  | .function f, .prototype t =>
    t.name = f.symbol ∧ t.parameters.map Slot.name = f.parameters.map Member.name ∧ t.location = f.location
  | _, _ => False

/-- The section of a kind. -/
def Header.ofKind (h : Header) : Kind → List Item
  | .typedef => h.typedefs.map .typedef
  | .enumeration => h.enumerations.map .enumeration
  | .struct => h.structs.map .struct
  | .function => h.prototypes.map .prototype

theorem Header.ofItems_ofKind (target : String) (is : List Item) (kind : Kind) :
    (ofItems target is).ofKind kind = is.filter (·.kind == kind) := by
  rw [← List.filterMap_eq_filter]
  cases kind <;> simp only [ofKind, ofItems, List.map_filterMap] <;>
    exact congrArg (List.filterMap · is) (funext fun i => by cases i <;> rfl)

namespace Scope

variable {scope : Scope}

theorem resolveMembers_names {ms : List Member} {slots : List Slot} (h : scope.resolveMembers ms = .ok slots) :
    slots.map Slot.name = ms.map Member.name := by
  induction ms generalizing slots with
  | nil =>
    cases h
    rfl
  | cons m ms ih =>
    rw [resolveMembers, except_bind_ok] at h
    obtain ⟨c, -, h⟩ := h
    rw [except_bind_ok] at h
    obtain ⟨rest, hrest, h⟩ := h
    cases h
    exact congrArg (m.name :: ·) (ih hrest)

theorem resolveDeclaration_shownBy {d : Declaration} {item : Item} (h : scope.resolveDeclaration d = .ok item) :
    d.ShownBy item := by
  rcases d with a | e | s | f
  · simp only [resolveDeclaration, except_map_ok] at h
    obtain ⟨c, -, rfl⟩ := h
    exact ⟨rfl, rfl⟩
  · cases h
    exact ⟨rfl, by simp, rfl⟩
  · simp only [resolveDeclaration, except_map_ok] at h
    obtain ⟨slots, hs, rfl⟩ := h
    exact ⟨rfl, resolveMembers_names hs, rfl⟩
  · simp only [resolveDeclaration, except_bind_ok] at h
    obtain ⟨c, -, slots, hs, h⟩ := h
    cases h
    exact ⟨rfl, resolveMembers_names hs, rfl⟩

/-- Whatever is told while a type is resolved comes from that stage. -/
theorem resolveEvents_stage {visited : List String} {t : TypeExpr} {e : Event}
    (h : e ∈ scope.resolveEvents visited t) : e.stage = .resolution := by
  induction visited, t using resolveEvents.induct scope with
  | case1 visited p =>
    rw [resolveEvents] at h
    cases h
  | case2 visited isMutable t ih =>
    rw [resolveEvents] at h
    exact ih h
  | case3 visited name args ih =>
    rw [resolveEvents, List.mem_append] at h
    rcases h with h | h
    · split at h
      · cases h
      · exact List.mem_singleton.1 h ▸ rfl
    · split at h
      · cases h
      next hv =>
        split at h
        next t ht => exact ih hv t ht h
        next =>
          split at h
          · cases h
          · exact List.mem_singleton.1 h ▸ rfl

theorem eventsUntilCycle_stage {visited : List String} {ts : List TypeExpr} {e : Event}
    (h : e ∈ scope.eventsUntilCycle visited ts) : e.stage = .resolution := by
  induction ts with
  | nil => cases h
  | cons t ts ih =>
    rw [eventsUntilCycle, List.mem_append] at h
    rcases h with h | h
    · exact resolveEvents_stage h
    · split at h
      · exact ih h
      · cases h

theorem declarationEvents_stage {d : Declaration} {e : Event} (h : e ∈ scope.declarationEvents d) :
    e.stage = .resolution := by
  rcases d with a | d | s | f
  · exact eventsUntilCycle_stage h
  · cases h
  · exact eventsUntilCycle_stage h
  · exact eventsUntilCycle_stage h

end Scope

namespace Selection

theorem ofKind_filter (s : Selection) (kind other : Kind) :
    (s.ofKind other).filter (·.kind == kind) = if other = kind then s.ofKind kind else [] := by
  split
  next same => simp [same, ofKind, List.filter_filter]
  next differ =>
    refine List.filter_eq_nil_iff.2 fun d hd => ?_
    have own : d.kind = other := by simpa using (List.mem_filter.1 hd).2
    simpa [own] using differ

theorem inSections_filter (s : Selection) (kind : Kind) :
    s.inSections.filter (·.kind == kind) = s.ofKind kind := by
  rw [inSections, List.filter_append, List.filter_append, List.filter_append]
  cases kind <;> simp [ofKind_filter]

end Selection

namespace Assembly

variable {ds : List Declaration}

/-- The emitted declarations in the order of the input. -/
def emittedSources (ds : List Declaration) : List Declaration :=
  (Selection.of ds).accepted.filter (· ∈ (emitted ds).map (·.source))

/-- The eligible declarations that are not emitted, each with its cause, in the order of the diagnostics. -/
def omissions (ds : List Declaration) : List (Declaration × Diagnostic.Cause) :=
  Selection.refusedAfter [] ds ++ reports ds

theorem emitted_sublist (ds : List Declaration) :
    ((emitted ds).map (·.source)).Sublist (Selection.of ds).inSections := by
  refine ((prune_kept_sublist (cycleNames ds) (candidates ds)).map (·.source)).trans ?_
  rw [candidates]
  induction (Selection.of ds).inSections with
  | nil => exact List.Sublist.refl _
  | cons d rest ih =>
    cases h : resolved? (scope ds) d with
    | none =>
      rw [List.filterMap_cons_none h]
      exact ih.cons d
    | some r =>
      obtain ⟨rfl, -⟩ := resolved?_eq_some.1 h
      rw [List.filterMap_cons_some h]
      exact ih.cons_cons r.source

theorem inSections_nodup (ds : List Declaration) : (Selection.of ds).inSections.Nodup :=
  List.Nodup.of_map _ (Selection.inSections_headerName_nodup ds)

theorem emittedSources_perm (ds : List Declaration) : (emittedSources ds).Perm ((emitted ds).map (·.source)) := by
  have perm := (Selection.of ds).inSections_perm.symm.filter (· ∈ (emitted ds).map (·.source))
  rwa [filter_mem_of_sublist (emitted_sublist ds) (inSections_nodup ds)] at perm

theorem emittedSources_ofKind (ds : List Declaration) (kind : Kind) :
    (emittedSources ds).filter (·.kind == kind) = ((emitted ds).filter (·.source.kind == kind)).map (·.source) := by
  have sections := filter_mem_of_sublist (emitted_sublist ds) (inSections_nodup ds)
  calc (emittedSources ds).filter (·.kind == kind)
      = ((Selection.of ds).accepted.filter (·.kind == kind)).filter (· ∈ (emitted ds).map (·.source)) := by
        rw [emittedSources, List.filter_comm]
    _ = ((Selection.of ds).inSections.filter (·.kind == kind)).filter (· ∈ (emitted ds).map (·.source)) := by
        rw [Selection.inSections_filter, Selection.ofKind]
    _ = ((emitted ds).map (·.source)).filter (·.kind == kind) := by
        rw [List.filter_comm, sections]
    _ = ((emitted ds).filter (·.source.kind == kind)).map (·.source) := by
        rw [List.filter_map]
        rfl

/-- Eligible is what is emitted and what is omitted. -/
theorem emittedSources_omissions_perm (ds : List Declaration) :
    (emittedSources ds ++ (omissions ds).map Prod.fst).Perm (ds.filter (·.isEligible)) := by
  have selection := Selection.accepted_refused_perm [] ds
  have sections := (Selection.of ds).inSections_perm
  have rounds := reports_perm ds
  have kept := emittedSources_perm ds
  -- each permutation gives one equation for how often a declaration occurs
  rw [List.perm_iff_count] at selection sections rounds kept ⊢
  intro d
  have same : (Selection.of ds).accepted.count d = (Selection.acceptedAfter [] ds).count d := rfl
  specialize selection d
  specialize sections d
  specialize rounds d
  specialize kept d
  rw [omissions, List.map_append]
  simp only [List.count_append] at *
  omega

theorem emittedSources_sublist (ds : List Declaration) :
    (emittedSources ds).Sublist (ds.filter (·.isEligible)) := by
  have eligible : ∀ d ∈ emittedSources ds, d.isEligible = true := fun d hd =>
    (List.mem_filter.1 ((emittedSources_omissions_perm ds).mem_iff.1 (List.mem_append_left _ hd))).2
  have sub : (emittedSources ds).Sublist ds := List.filter_sublist.trans (Selection.accepted_sublist ds)
  rw [← List.filter_eq_self.2 eligible]
  exact sub.filter (·.isEligible)

theorem diagnostics_omissions (ds : List Declaration) (target : String) :
    (of ds target).diagnostics = (omissions ds).map fun r => Diagnostic.of r.1 r.2 := by
  rw [diagnostics_of, Selection.diagnostics_eq, omissions, List.map_append]

theorem emitted_ofKind (ds : List Declaration) (kind : Kind) :
    (emitted ds).filter (·.item.kind == kind) = (emitted ds).filter (·.source.kind == kind) :=
  List.filter_congr fun r hr => by rw [(Scope.resolveDeclaration_ok (emitted_resolves hr).2).1]

theorem section_shown (ds : List Declaration) (target : String) (kind : Kind) :
    List.Forall₂ Declaration.ShownBy ((emittedSources ds).filter (·.kind == kind))
      ((of ds target).header.ofKind kind) := by
  rw [header_of, Header.ofItems_ofKind, List.filter_map, emittedSources_ofKind, ← emitted_ofKind,
    List.forall₂_map_left_iff, List.forall₂_map_right_iff]
  refine List.forall₂_same.2 fun r hr => ?_
  exact Scope.resolveDeclaration_shownBy (emitted_resolves (List.mem_filter.1 hr).1).2

theorem declarationEvents_reports (scope : Scope) (d : Declaration) :
    (declarationEvents scope d).filter Event.isReport = (cycle? scope d).toList.map (.skipping .generation) := by
  have quiet : (scope.declarationEvents d).filter Event.isReport = [] := by
    refine List.filter_eq_nil_iff.2 fun e he => ?_
    simp [Event.isReport, Scope.declarationEvents_stage he]
  rw [declarationEvents, List.filter_append, quiet, List.nil_append, List.filter_eq_self]
  intro e he
  obtain ⟨g, -, rfl⟩ := List.mem_map.1 he
  rfl

/-- An assembly warns of its diagnostics, one after the other. -/
theorem reports_messages (ds : List Declaration) (target : String) :
    ((of ds target).events.filter Event.isReport).map Event.message =
      (of ds target).diagnostics.map fun g => "skipping " ++ g.text := by
  have rounds : ((prune (cycleNames ds) (candidates ds)).2.map (Event.skipping .generation)).filter Event.isReport =
      (prune (cycleNames ds) (candidates ds)).2.map (.skipping .generation) := by
    refine List.filter_eq_self.2 fun e he => ?_
    obtain ⟨g, -, rfl⟩ := List.mem_map.1 he
    rfl
  have cycles : ((Selection.of ds).inSections.flatMap (declarationEvents (scope ds))).filter Event.isReport =
      ((Selection.of ds).inSections.filterMap (cycle? (scope ds))).map (Event.skipping .generation) := by
    rw [List.filter_flatMap, List.filterMap_eq_flatMap_toList, List.map_flatMap]
    exact congrArg (List.flatMap · _) (funext (declarationEvents_reports (scope ds)))
  simp only [events_parts, diagnostics_parts, List.filter_append, Selection.reports_events, cycles, rounds,
    List.map_append, List.map_map]
  rfl

/-- The places of the input, those of what is emitted in order and those of what is omitted, against what an assembly
emits and reports. -/
structure Accounts (ds : List Declaration) (a : Assembly) (kept omitted : List (Fin ds.length)) : Prop where
  ordered : kept.Pairwise (· < ·)
  once : (kept ++ omitted).Nodup
  eligible : ∀ i, i ∈ kept ++ omitted ↔ (ds.get i).isEligible = true
  shown : ∀ kind, List.Forall₂ (fun i item => (ds.get i).ShownBy item) (kept.filter fun i => (ds.get i).kind == kind)
    (a.header.ofKind kind)
  reported : List.Forall₂ (fun i g => g.name = (ds.get i).name ∧ g.location = (ds.get i).location) omitted a.diagnostics

theorem exists_accounts (ds : List Declaration) (target : String) :
    ∃ kept omitted, Accounts ds (of ds target) kept omitted := by
  obtain ⟨kept, omitted, emitted, reported, ordered, once, eligible⟩ :=
    exists_places (emittedSources_sublist ds) (emittedSources_omissions_perm ds)
  refine ⟨kept, omitted, ordered, once, eligible, fun kind => ?_, ?_⟩
  · have shown := section_shown ds target kind
    rw [← emitted, List.filter_map, List.forall₂_map_left_iff] at shown
    exact shown
  · rw [diagnostics_omissions, List.forall₂_map_right_iff]
    have pairs : List.Forall₂ (fun d r => d = r.1) ((omissions ds).map Prod.fst) (omissions ds) :=
      List.forall₂_map_left_iff.2 (List.forall₂_same.2 fun _ _ => rfl)
    rw [← reported, List.forall₂_map_left_iff] at pairs
    exact pairs.imp fun i r same => ⟨congrArg Declaration.name same.symm, congrArg Declaration.location same.symm⟩

theorem countP_eligible (ds : List Declaration) (target : String) :
    ds.countP (·.isEligible) = (of ds target).header.items.length + (of ds target).diagnostics.length := by
  have places := (emittedSources_omissions_perm ds).length_eq
  have kept := (emittedSources_perm ds).length_eq
  have items := (Header.ofItems_items_perm target ((emitted ds).map (·.item))).length_eq
  rw [header_of, diagnostics_omissions, List.countP_eq_length_filter, ← places, items]
  simp only [List.length_append, List.length_map] at kept ⊢
  omega

/-- Every eligible declaration of the input is emitted or reported, once, and nothing else is. The sections of the
header show what is emitted in the order of the input, no two declarations of the header have one name, and the
warnings are those of the diagnostics. -/
theorem eligible_emitted_or_reported (ds : List Declaration) (target : String) :
    let a := of ds target
    (∃ kept omitted, Accounts ds a kept omitted) ∧
      ds.countP (·.isEligible) = a.header.items.length + a.diagnostics.length ∧
      (a.header.items.map Item.name).Nodup ∧
      (a.events.filter Event.isReport).map Event.message = a.diagnostics.map fun g => "skipping " ++ g.text := by
  intro a
  exact ⟨exists_accounts ds target, countP_eligible ds target, header_names_nodup ds target, reports_messages ds target⟩

end Assembly

end CInterface
