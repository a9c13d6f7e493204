import CInterface.Proofs.Selection.Reordering
import Mathlib.Data.List.FinRange

/-!
# The rule of a selection

What a single pass over the input makes of it, as a rule about the places of the input. Accepted is what is marked for
export and not generic, unless an accepted declaration in front of it takes its name in the header; whatever else is
marked for export is reported, in the order of the input. Aliases are the first ones of their names that are not
generic, marked or not.
-/

namespace CInterface

open Source

/-- An alias with type parameters, or with a type application under any number of pointers as its target. -/
def Source.Alias.IsGeneric (a : Alias) : Prop :=
  a.typeParams ≠ [] ∨
    ∃ (marks : List Bool) (name : String) (args : List TypeExpr), args ≠ [] ∧
      a.target = marks.foldr .pointer (.named name args)

def Source.Declaration.IsGeneric (d : Declaration) : Prop := ∃ a, d = .alias a ∧ a.IsGeneric

theorem Source.TypeExpr.isParameterized_iff {t : TypeExpr} :
    t.isParameterized = true ↔
      ∃ (marks : List Bool) (name : String) (args : List TypeExpr), args ≠ [] ∧
        t = marks.foldr .pointer (.named name args) := by
  constructor
  · intro h
    induction t using isParameterized.induct with
    | case1 p => cases h
    | case2 isMutable pointee ih =>
      obtain ⟨marks, name, args, nonempty, rfl⟩ := ih h
      exact ⟨isMutable :: marks, name, args, nonempty, rfl⟩
    | case3 name args => exact ⟨[], name, args, by simpa [isParameterized] using h, rfl⟩
  · rintro ⟨marks, name, args, nonempty, rfl⟩
    induction marks with
    | nil => simpa [isParameterized] using nonempty
    | cons isMutable marks ih => exact ih

theorem Source.Alias.isSupported_iff {a : Alias} : a.isSupported = true ↔ ¬ a.IsGeneric := by
  rw [isSupported, Bool.and_eq_true, Bool.not_eq_true', List.isEmpty_iff, IsGeneric, not_or, not_not,
    ← TypeExpr.isParameterized_iff, Bool.not_eq_true]

theorem Source.Declaration.unsupported?_eq_some {d : Declaration} {a : Alias} :
    d.unsupported? = some a ↔ d = .alias a ∧ a.IsGeneric := by
  rcases d with b | e | s | f
  · rw [unsupported?, Declaration.alias.injEq]
    by_cases supported : b.isSupported = true
    · rw [if_pos supported]
      refine iff_of_false nofun ?_
      rintro ⟨rfl, generic⟩
      exact Alias.isSupported_iff.1 supported generic
    · rw [if_neg supported, Option.some.injEq]
      refine (and_iff_left_of_imp ?_).symm
      rintro rfl
      exact not_not.1 fun plain => supported (Alias.isSupported_iff.2 plain)
  all_goals exact iff_of_false nofun nofun

theorem Source.Declaration.isExportable_iff {d : Declaration} :
    d.isExportable = true ↔ d.isEligible = true ∧ ¬ d.IsGeneric := by
  have supported : d.unsupported? = none ↔ ¬ d.IsGeneric := by
    rw [Option.eq_none_iff_forall_ne_some, IsGeneric, not_exists]
    exact forall_congr' fun a => not_congr unsupported?_eq_some
  rw [isExportable, Bool.and_eq_true, Option.isNone_iff_eq_none, supported]

theorem forall₂_filterMap {α β : Type} {f : α → Option β} {p : α → Bool} (h : ∀ x, p x = (f x).isSome)
    (xs : List α) : List.Forall₂ (fun x y => f x = some y) (xs.filter p) (xs.filterMap f) := by
  induction xs with
  | nil => exact .nil
  | cons x xs ih =>
    cases hx : f x with
    | none => rwa [List.filter_cons_of_neg (by simp [h, hx]), List.filterMap_cons_none hx]
    | some y =>
      rw [List.filter_cons_of_pos (by simp [h, hx]), List.filterMap_cons_some hx]
      exact .cons hx ih

section Aliases

variable {seen : List String} {as : List Alias} {a : Alias} {ds : List Declaration}

theorem mem_firstByName :
    a ∈ firstByName seen as ↔ a.name ∉ seen ∧ as.find? (·.name == a.name) = some a := by
  induction as generalizing seen with
  | nil => simp [firstByName]
  | cons b as ih =>
    rw [firstByName]
    split
    next known =>
      rw [ih]
      refine and_congr_right fun fresh => ?_
      have differ : b.name ≠ a.name := fun same => fresh (same ▸ known)
      rw [List.find?_cons_of_neg (by simpa using differ)]
    next fresh =>
      rw [List.mem_cons, ih, List.mem_cons, not_or]
      by_cases same : b.name = a.name
      · rw [List.find?_cons_of_pos (by simpa using same), Option.some.injEq]
        constructor
        · rintro (rfl | ⟨⟨differ, -⟩, -⟩)
          · exact ⟨fresh, rfl⟩
          · exact absurd same.symm differ
        · rintro ⟨-, rfl⟩
          exact .inl rfl
      · rw [List.find?_cons_of_neg (by simpa using same)]
        constructor
        · rintro (rfl | ⟨⟨-, out⟩, found⟩)
          · exact absurd rfl same
          · exact ⟨out, found⟩
        · rintro ⟨out, found⟩
          exact .inr ⟨⟨Ne.symm same, out⟩, found⟩

theorem firstByName_nodup (seen : List String) (as : List Alias) :
    ((firstByName seen as).map Alias.name).Nodup := by
  induction as generalizing seen with
  | nil => exact List.nodup_nil
  | cons b as ih =>
    rw [firstByName]
    split
    next => exact ih seen
    next =>
      refine List.nodup_cons.2 ⟨fun mem => ?_, ih _⟩
      obtain ⟨a, ha, same⟩ := List.mem_map.1 mem
      exact (mem_firstByName.1 ha).1 (same ▸ List.mem_cons_self)

/-- The aliases of a selection are the first ones of their names that are not generic. -/
theorem mem_aliases :
    a ∈ (Selection.of ds).aliases ↔
      ∃ before after : List Declaration, ds = before ++ .alias a :: after ∧ ¬ a.IsGeneric ∧
        ∀ b, .alias b ∈ before → ¬ b.IsGeneric → b.name ≠ a.name := by
  have own (supported : a.isSupported = true) (before after : List Declaration) :
      supportedAliases (before ++ .alias a :: after) = supportedAliases before ++ a :: supportedAliases after := by
    simp [supportedAliases, Declaration.alias?, supported]
  change a ∈ firstByName [] (supportedAliases ds) ↔ _
  rw [mem_firstByName, and_iff_right List.not_mem_nil]
  constructor
  · intro found
    obtain ⟨mem, supported⟩ := mem_supportedAliases.1 (List.mem_of_find?_eq_some found)
    obtain ⟨before, after, rfl, first⟩ := List.eq_append_cons_of_mem mem
    refine ⟨before, after, rfl, Alias.isSupported_iff.1 supported, fun b hb plain same => first ?_⟩
    -- an earlier one of the name would have been found instead
    rw [own supported, List.find?_append] at found
    have early : b ∈ supportedAliases before := mem_supportedAliases.2 ⟨hb, Alias.isSupported_iff.2 plain⟩
    cases hf : (supportedAliases before).find? (·.name == a.name) with
    | none => exact absurd (beq_iff_eq.2 same) (List.find?_eq_none.1 hf b early)
    | some c =>
      rw [hf, Option.some_or, Option.some.injEq] at found
      exact (mem_supportedAliases.1 (found ▸ List.mem_of_find?_eq_some hf)).1
  · rintro ⟨before, after, rfl, plain, first⟩
    rw [own (Alias.isSupported_iff.2 plain), List.find?_append, List.find?_eq_none.2, Option.none_or,
      List.find?_cons_of_pos (by simp)]
    intro b hb same
    obtain ⟨mem, supported⟩ := mem_supportedAliases.1 hb
    exact first b mem (Alias.isSupported_iff.1 supported) (beq_iff_eq.1 same)

end Aliases

namespace Selection

variable {ds : List Declaration}

theorem judge_singleton (taken : List Declaration) (d : Declaration) : judge taken [d] = [(d, verdict taken d)] := by
  cases hv : verdict taken d <;> simp only [judge, hv]

/-- Each declaration is judged in the light of what is accepted from those in front of it. -/
theorem judge_places (taken ds : List Declaration) :
    judge taken ds = (List.finRange ds.length).map fun i =>
      (ds.get i, verdict (taken ++ acceptedAfter taken (ds.take i)) (ds.get i)) := by
  induction ds generalizing taken with
  | nil => rfl
  | cons d ds ih =>
    -- the first declaration by itself, the others after what it adds
    have head := judge_append taken [d] ds
    rw [judge_singleton, List.singleton_append, List.singleton_append, ih] at head
    have places : List.finRange (d :: ds).length = 0 :: (List.finRange ds.length).map Fin.succ := List.finRange_succ
    rw [head, places, List.map_cons, List.map_map]
    refine congrArg₂ List.cons (by simp) (List.map_congr_left fun i _ => ?_)
    have passed : acceptedAfter taken (d :: ds.take i) =
        acceptedAfter taken [d] ++ acceptedAfter (taken ++ acceptedAfter taken [d]) (ds.take i) :=
      acceptedAfter_append taken [d] (ds.take i)
    simp only [Function.comp_def, List.get_cons_succ', Fin.val_succ, List.take_succ_cons, passed, List.append_assoc]

/-- The verdict on the declaration at a place of the input. -/
def verdictAt (ds : List Declaration) (i : Fin ds.length) : Verdict :=
  verdict (of (ds.take i)).accepted (ds.get i)

/-- The places of what is accepted. -/
def keptPlaces (ds : List Declaration) : List (Fin ds.length) :=
  (List.finRange ds.length).filter (verdictAt ds · = .accepted)

/-- The places of what is marked for export and not accepted. -/
def omittedPlaces (ds : List Declaration) : List (Fin ds.length) :=
  (List.finRange ds.length).filter fun i => (ds.get i).isEligible && verdictAt ds i != .accepted

variable {i j k : Fin ds.length} {d : Declaration}

theorem mem_keptPlaces : i ∈ keptPlaces ds ↔ verdictAt ds i = .accepted := by
  simp [keptPlaces]

theorem mem_omittedPlaces :
    i ∈ omittedPlaces ds ↔ (ds.get i).isEligible = true ∧ i ∉ keptPlaces ds := by
  simp [omittedPlaces, mem_keptPlaces]

theorem judge_input (ds : List Declaration) :
    judge [] ds = (List.finRange ds.length).map fun i => (ds.get i, verdictAt ds i) := judge_places [] ds

theorem accepted_places (ds : List Declaration) : (of ds).accepted = (keptPlaces ds).map ds.get := by
  change (judge [] ds).filterMap accepted? = _
  rw [judge_input, List.filterMap_map, keptPlaces, ← List.filterMap_eq_filter, List.map_filterMap]
  refine congrArg (List.filterMap · _) (funext fun i => ?_)
  cases hv : verdictAt ds i <;> simp [accepted?, hv, Option.guard]

theorem diagnostics_places (ds : List Declaration) :
    List.Forall₂ (fun i g => diagnostic? (ds.get i, verdictAt ds i) = some g) (omittedPlaces ds)
      (of ds).diagnostics := by
  change List.Forall₂ _ _ ((judge [] ds).filterMap diagnostic?)
  rw [judge_input, List.filterMap_map]
  refine forall₂_filterMap (fun i => ?_) _
  cases hv : verdictAt ds i with
  | internal =>
    have out : (ds.get i).isEligible = false := verdict_eq_internal.1 hv
    simp only [diagnostic?, out, Bool.false_and, Option.isSome_none]
  | accepted => simp [diagnostic?]
  | refused cause =>
    have eligible : (ds.get i).isEligible = true := isEligible_of_verdict hv (by simp)
    simp only [diagnostic?, eligible, Bool.true_and, Option.isSome_some, bne_iff_ne, ne_eq, reduceCtorEq,
      not_false_eq_true]

theorem mem_acceptedAfter_singleton {taken : List Declaration} {e : Declaration} :
    d ∈ acceptedAfter taken [e] ↔ verdict taken e = .accepted ∧ e = d := by
  by_cases accepted : verdict taken e = .accepted
  · simp [acceptedAfter_cons_accepted, accepted, eq_comm]
  · simp [acceptedAfter_cons_other, accepted]

/-- Accepted from the beginning of the input is what stands at the accepted places there. -/
theorem mem_accepted_take {n : Nat} (inside : n ≤ ds.length) :
    d ∈ (of (ds.take n)).accepted ↔ ∃ j ∈ keptPlaces ds, j < n ∧ ds.get j = d := by
  induction n with
  | zero => simp [of, judge]
  | succ n ih =>
    have parts : (of (ds.take (n + 1))).accepted =
        (of (ds.take n)).accepted ++ acceptedAfter (of (ds.take n)).accepted [ds.get ⟨n, inside⟩] := by
      rw [List.take_succ_eq_append_getElem inside]
      exact acceptedAfter_append [] (ds.take n) _
    rw [parts, List.mem_append, ih (Nat.le_of_succ_le inside), mem_acceptedAfter_singleton]
    constructor
    · rintro (⟨j, hj, lt, here⟩ | ⟨accepted, here⟩)
      · exact ⟨j, hj, Nat.lt_succ_of_lt lt, here⟩
      · exact ⟨⟨n, inside⟩, mem_keptPlaces.2 accepted, Nat.lt_succ_self n, here⟩
    · rintro ⟨j, hj, lt, here⟩
      rcases Nat.lt_succ_iff_lt_or_eq.1 lt with lt | rfl
      · exact .inl ⟨j, hj, lt, here⟩
      · exact .inr ⟨mem_keptPlaces.1 hj, here⟩

/-- What is accepted in front of a place. -/
theorem mem_accepted_before :
    d ∈ (of (ds.take i)).accepted ↔ ∃ j ∈ keptPlaces ds, j < i ∧ ds.get j = d :=
  mem_accepted_take i.is_le'

/-- Accepted is what is marked for export and not generic, and whose name in the header no accepted declaration in
front of it takes. -/
theorem mem_keptPlaces_iff :
    i ∈ keptPlaces ds ↔
      (ds.get i).isEligible = true ∧ ¬ (ds.get i).IsGeneric ∧
        ∀ j ∈ keptPlaces ds, j < i → (ds.get j).headerName ≠ (ds.get i).headerName := by
  rw [mem_keptPlaces, ← and_assoc, ← Declaration.isExportable_iff]
  constructor
  · intro accepted
    refine ⟨isExportable_of_accepted accepted, fun j hj lt same => ?_⟩
    exact headerName_free_of_accepted accepted
      (List.mem_map.2 ⟨ds.get j, mem_accepted_before.2 ⟨j, hj, lt, rfl⟩, same⟩)
  · rintro ⟨exportable, first⟩
    refine verdict_exportable exportable fun taken => ?_
    obtain ⟨e, he, same⟩ := List.mem_map.1 taken
    obtain ⟨j, hj, lt, rfl⟩ := mem_accepted_before.1 he
    exact first j hj lt same

theorem not_isGeneric_of_accepted (h : d ∈ (of ds).accepted) : ¬ d.IsGeneric := by
  rw [accepted_places] at h
  obtain ⟨i, hi, rfl⟩ := List.mem_map.1 h
  exact (mem_keptPlaces_iff.1 hi).2.1

/-- No two accepted declarations take one name. -/
theorem keptPlaces_unique (hj : j ∈ keptPlaces ds) (hk : k ∈ keptPlaces ds)
    (same : (ds.get j).headerName = (ds.get k).headerName) : j = k := by
  rcases lt_trichotomy j k with lt | rfl | lt
  · exact absurd same ((mem_keptPlaces_iff.1 hk).2.2 j hj lt)
  · rfl
  · exact absurd same.symm ((mem_keptPlaces_iff.1 hj).2.2 k hk lt)

/-- What the diagnostic says of a declaration that is left out: that it is generic, or which accepted declaration in
front of it takes its name. -/
inductive Reports (ds : List Declaration) (kept : List (Fin ds.length)) (i : Fin ds.length) (g : Diagnostic) : Prop
  | unsupported (a : Alias) (here : ds.get i = .alias a) (generic : a.IsGeneric)
      (kind : g.cause.kind = "unsupported-alias")
      (reason : g.cause.reason = "generic type alias is not supported: " ++ a.text)
  | duplicate (j : Fin ds.length) (plain : ¬ (ds.get i).IsGeneric) (accepted : j ∈ kept) (earlier : j < i)
      (same : (ds.get j).headerName = (ds.get i).headerName)
      (unique : ∀ k ∈ kept, (ds.get k).headerName = (ds.get i).headerName → k = j)
      (kind : g.cause.kind = "duplicate-name")
      (reason : g.cause.reason =
        "name already exported by " ++ (ds.get j).kind.label ++ " " ++ (ds.get j).name)

/-- A declaration is refused because it is generic, or for its name, by an accepted declaration that takes it. -/
theorem cause_of_refused {taken : List Declaration} {cause : Diagnostic.Cause} (hv : verdict taken d = .refused cause) :
    (∃ a, d = .alias a ∧ a.IsGeneric ∧ cause = .unsupportedAlias a) ∨
      ¬ d.IsGeneric ∧ ∃ holder ∈ taken, holder.headerName = d.headerName ∧
        cause = .duplicateName holder.kind holder.name := by
  have eligible : d.isEligible = true := isEligible_of_verdict hv (by simp)
  cases unsupported : d.unsupported? with
  | some a =>
    cases hv.symm.trans (verdict_unsupported eligible unsupported)
    obtain ⟨here, generic⟩ := Declaration.unsupported?_eq_some.1 unsupported
    exact .inl ⟨a, here, generic, rfl⟩
  | none =>
    have exportable : d.isExportable = true := by
      rw [Declaration.isExportable, eligible, unsupported]
      rfl
    exact .inr ⟨(Declaration.isExportable_iff.1 exportable).2, duplicate_of_refused exportable hv⟩

theorem reports_of_refused {cause : Diagnostic.Cause} (hv : verdictAt ds i = .refused cause) :
    Reports ds (keptPlaces ds) i (.of (ds.get i) cause) := by
  obtain ⟨a, here, generic, rfl⟩ | ⟨plain, holder, taken, same, rfl⟩ := cause_of_refused hv
  · exact .unsupported a here generic rfl rfl
  · -- the holder was accepted before this place, so it has a place of its own in front
    obtain ⟨j, hj, earlier, rfl⟩ := mem_accepted_before.1 taken
    exact .duplicate j plain hj earlier same (fun k hk same' => keptPlaces_unique hk hj (same'.trans same.symm)) rfl rfl

/-- The places of the input, those of what is accepted and those of what is left out although it is marked for export,
against the outcome of a selection. -/
structure Selects (ds : List Declaration) (s : Selection) (kept omitted : List (Fin ds.length)) : Prop where
  kept_ordered : kept.Pairwise (· < ·)
  mem_kept : ∀ i, i ∈ kept ↔
    (ds.get i).isEligible = true ∧ ¬ (ds.get i).IsGeneric ∧
      ∀ j ∈ kept, j < i → (ds.get j).headerName ≠ (ds.get i).headerName
  accepted : s.accepted = kept.map ds.get
  ofKind : ∀ kind, s.ofKind kind = (kept.filter fun i => (ds.get i).kind == kind).map ds.get
  omitted_ordered : omitted.Pairwise (· < ·)
  mem_omitted : ∀ i, i ∈ omitted ↔ (ds.get i).isEligible = true ∧ i ∉ kept
  reported : List.Forall₂ (fun i g => g.name = (ds.get i).name ∧ g.location = (ds.get i).location ∧
    Reports ds kept i g) omitted s.diagnostics

theorem selects (ds : List Declaration) : Selects ds (of ds) (keptPlaces ds) (omittedPlaces ds) where
  kept_ordered := (List.pairwise_lt_finRange _).filter _
  mem_kept _ := mem_keptPlaces_iff
  accepted := accepted_places ds
  ofKind kind := by
    rw [ofKind, accepted_places, List.filter_map]
    rfl
  omitted_ordered := (List.pairwise_lt_finRange _).filter _
  mem_omitted _ := mem_omittedPlaces
  reported := (diagnostics_places ds).imp fun i g hg => by
    cases hv : verdictAt ds i with
    | internal => cases hv ▸ hg
    | accepted => cases hv ▸ hg
    | refused cause =>
      rw [hv, diagnostic?, Option.some.injEq] at hg
      subst hg
      exact ⟨rfl, rfl, reports_of_refused hv⟩

/-- Accepted is what is marked for export and not generic, unless an accepted declaration in front of it takes its name
in the header. Whatever else is marked for export has one diagnostic, in the order of the input, which says that it is
generic or names the only accepted declaration that takes its name. The aliases are the first ones of their names that
are not generic. -/
theorem selection_rule (ds : List Declaration) :
    (∃ kept omitted, Selects ds (of ds) kept omitted) ∧
      ((of ds).aliases.map Alias.name).Nodup ∧
      ∀ a, a ∈ (of ds).aliases ↔
        ∃ before after : List Declaration, ds = before ++ .alias a :: after ∧ ¬ a.IsGeneric ∧
          ∀ b, .alias b ∈ before → ¬ b.IsGeneric → b.name ≠ a.name := by
  refine ⟨⟨_, _, selects ds⟩, firstByName_nodup _ _, fun a => ?_⟩
  exact mem_aliases

end Selection

end CInterface
