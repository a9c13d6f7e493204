import CInterface.Proofs.Keys
import CInterface.Proofs.Selection.Parts

/-!
# Selections of distinct names

Where no two declarations would take one name in the header, nothing is refused for its name: what is accepted and
what is refused are read off each declaration by itself. Where no two aliases that can be followed have one name, the
order does not matter for what they are looked up as.
-/

namespace CInterface

open Source

/-- Marked for export and supported. -/
def Source.Declaration.isExportable (d : Declaration) : Bool := d.isEligible && d.unsupported?.isNone

/-- The refusal of a declaration that is marked for export but not supported. -/
def Source.Declaration.unsupportedReport? (d : Declaration) : Option (Declaration × Diagnostic.Cause) :=
  if d.isEligible then d.unsupported?.map fun a => (d, .unsupportedAlias a) else none

theorem verdict_exportable {taken : List Declaration} {d : Declaration} (h : d.isExportable = true)
    (free : d.headerName ∉ taken.map (·.headerName)) : verdict taken d = .accepted := by
  obtain ⟨eligible, supported⟩ := Bool.and_eq_true_iff.1 h
  have none : taken.find? (·.headerName == d.headerName) = none :=
    List.find?_eq_none.2 fun e he same => free (List.mem_map.2 ⟨e, he, beq_iff_eq.1 same⟩)
  simp [verdict, eligible, Option.isNone_iff_eq_none.1 supported, none]

theorem verdict_unsupported {taken : List Declaration} {d : Declaration} {a : Alias} (eligible : d.isEligible = true)
    (h : d.unsupported? = some a) : verdict taken d = .refused (.unsupportedAlias a) := by
  simp [verdict, eligible, h]

theorem isExportable_of_accepted {taken : List Declaration} {d : Declaration} (h : verdict taken d = .accepted) :
    d.isExportable = true := by
  have eligible := isEligible_of_verdict h (by simp)
  cases unsupported : d.unsupported? with
  | none => simp [Declaration.isExportable, eligible, unsupported]
  | some a => cases h.symm.trans (verdict_unsupported eligible unsupported)

/-- What can be exported is refused only for its name, by what holds the name. -/
theorem duplicate_of_refused {taken : List Declaration} {d : Declaration} {cause : Diagnostic.Cause}
    (exportable : d.isExportable = true) (h : verdict taken d = .refused cause) :
    ∃ holder ∈ taken, holder.headerName = d.headerName ∧ cause = .duplicateName holder.kind holder.name := by
  obtain ⟨eligible, supported⟩ := Bool.and_eq_true_iff.1 exportable
  simp only [verdict, eligible, Option.isNone_iff_eq_none.1 supported] at h
  split at h
  · cases h
  · split at h
    next holder found =>
      cases h
      exact ⟨holder, List.mem_of_find?_eq_some found, by simpa using List.find?_some found, rfl⟩
    next => cases h

namespace Selection

/-- With distinct names, what is accepted and what is refused depend on each declaration alone. -/
theorem after_distinct (taken ds : List Declaration)
    (distinct : ((taken ++ ds.filter (·.isExportable)).map (·.headerName)).Nodup) :
    acceptedAfter taken ds = ds.filter (·.isExportable) ∧
      refusedAfter taken ds = ds.filterMap (·.unsupportedReport?) := by
  induction ds generalizing taken with
  | nil => exact ⟨rfl, rfl⟩
  | cons d ds ih =>
    cases eligible : d.isEligible with
    | false =>
      have internal : verdict taken d = .internal := verdict_eq_internal.2 eligible
      have quiet : d.unsupportedReport? = none := by simp [Declaration.unsupportedReport?, eligible]
      rw [List.filter_cons_of_neg (by simp [Declaration.isExportable, eligible])] at distinct ⊢
      rw [acceptedAfter_cons_other ds (by simp [internal]), refusedAfter_cons_internal ds internal,
        List.filterMap_cons_none quiet]
      exact ih taken distinct
    | true =>
      cases supported : d.unsupported? with
      | some a =>
        have refused : verdict taken d = .refused (.unsupportedAlias a) := verdict_unsupported eligible supported
        have report : d.unsupportedReport? = some (d, .unsupportedAlias a) := by
          simp [Declaration.unsupportedReport?, eligible, supported]
        rw [List.filter_cons_of_neg (by simp [Declaration.isExportable, supported])] at distinct ⊢
        rw [acceptedAfter_cons_other ds (by simp [refused]), refusedAfter_cons_refused ds refused,
          List.filterMap_cons_some report]
        exact (ih taken distinct).imp_right (congrArg _)
      | none =>
        have exportable : d.isExportable = true := by simp [Declaration.isExportable, eligible, supported]
        have quiet : d.unsupportedReport? = none := by simp [Declaration.unsupportedReport?, supported]
        rw [List.filter_cons_of_pos exportable] at distinct ⊢
        have free : d.headerName ∉ taken.map (·.headerName) := by
          rw [List.map_append, List.nodup_append'] at distinct
          exact fun mem => distinct.2.2 mem List.mem_cons_self
        have accepted := verdict_exportable exportable free
        rw [acceptedAfter_cons_accepted ds accepted, refusedAfter_cons_accepted ds accepted,
          List.filterMap_cons_none quiet]
        exact (ih (taken ++ [d]) (by simpa using distinct)).imp_left (congrArg _)

/-- If nothing is refused for its name, everything that can be exported is accepted. -/
theorem acceptedAfter_of_unique (taken ds : List Declaration)
    (unique : ∀ r ∈ refusedAfter taken ds, r.2.kind ≠ "duplicate-name") :
    acceptedAfter taken ds = ds.filter (·.isExportable) := by
  induction ds generalizing taken with
  | nil => rfl
  | cons d ds ih =>
    cases hv : verdict taken d with
    | accepted =>
      rw [refusedAfter_cons_accepted ds hv] at unique
      rw [acceptedAfter_cons_accepted ds hv, ih _ unique, List.filter_cons_of_pos (isExportable_of_accepted hv)]
    | internal =>
      have out : ¬ d.isExportable = true := by simp [Declaration.isExportable, verdict_eq_internal.1 hv]
      rw [refusedAfter_cons_internal ds hv] at unique
      rw [acceptedAfter_cons_other ds (by simp [hv]), ih _ unique, List.filter_cons_of_neg out]
    | refused cause =>
      rw [refusedAfter_cons_refused ds hv] at unique
      obtain ⟨named, rest⟩ := List.forall_mem_cons.1 unique
      have out : ¬ d.isExportable = true := fun exportable =>
        let ⟨_, _, _, duplicate⟩ := duplicate_of_refused exportable hv
        named (congrArg Diagnostic.Cause.kind duplicate)
      rw [acceptedAfter_cons_other ds (by simp [hv]), ih _ rest, List.filter_cons_of_neg out]

end Selection

/-- A list in which no two aliases that can be followed have one name, and no two declarations that can be exported
would take one name in the header. -/
structure Distinct (ds : List Declaration) : Prop where
  aliases : ((supportedAliases ds).map Alias.name).Nodup
  headerNames : ((ds.filter (·.isExportable)).map (·.headerName)).Nodup

section

variable {ds ds' : List Declaration}

/-- Where nothing is refused for its name, no two declarations would take one name in the header. -/
theorem Distinct.of_unique (aliases : ((supportedAliases ds).map Alias.name).Nodup)
    (unique : ∀ r ∈ Selection.refusedAfter [] ds, r.2.kind ≠ "duplicate-name") : Distinct ds where
  aliases := aliases
  headerNames := Selection.acceptedAfter_of_unique [] ds unique ▸ Selection.accepted_headerName_nodup ds

theorem Distinct.sublist (distinct : Distinct ds) (sub : ds'.Sublist ds) : Distinct ds' where
  aliases := distinct.aliases.sublist (((sub.filterMap _).filter _).map _)
  headerNames := distinct.headerNames.sublist ((sub.filter _).map _)

theorem Distinct.perm (distinct : Distinct ds) (perm : ds.Perm ds') : Distinct ds' where
  aliases := ((((perm.filterMap _).filter _).map _).nodup_iff).1 distinct.aliases
  headerNames := (((perm.filter _).map _).nodup_iff).1 distinct.headerNames

theorem Distinct.accepted (distinct : Distinct ds) :
    (Selection.of ds).accepted = ds.filter (·.isExportable) :=
  (Selection.after_distinct [] ds distinct.headerNames).1

theorem Distinct.refused (distinct : Distinct ds) :
    Selection.refusedAfter [] ds = ds.filterMap (·.unsupportedReport?) :=
  (Selection.after_distinct [] ds distinct.headerNames).2

theorem Distinct.accepted_perm (distinct : Distinct ds) (perm : ds.Perm ds') :
    (Selection.of ds).accepted.Perm (Selection.of ds').accepted := by
  rw [distinct.accepted, (distinct.perm perm).accepted]
  exact perm.filter _

theorem Distinct.diagnostics_perm (distinct : Distinct ds) (perm : ds.Perm ds') :
    (Selection.of ds).diagnostics.Perm (Selection.of ds').diagnostics := by
  rw [Selection.diagnostics_eq, Selection.diagnostics_eq, distinct.refused, (distinct.perm perm).refused]
  exact (perm.filterMap _).map _

/-- An alias that can be followed is looked up as the only one of its name. -/
theorem Distinct.target?_eq_some (distinct : Distinct ds) {name : String} {t : TypeExpr} :
    (Scope.ofSelection (.of ds)).target? name = some t ↔
      ∃ a, .alias a ∈ ds ∧ a.isSupported = true ∧ a.name = name ∧ a.target = t := by
  simp only [Scope.target?_ofSelection, Option.map_eq_some_iff, find?_key_iff distinct.aliases, mem_supportedAliases,
    and_assoc]

theorem Distinct.target?_eq (distinct : Distinct ds) (perm : ds.Perm ds') (name : String) :
    (Scope.ofSelection (.of ds)).target? name = (Scope.ofSelection (.of ds')).target? name := by
  have reordered : (supportedAliases ds).Perm (supportedAliases ds') := (perm.filterMap _).filter _
  rw [Scope.target?_ofSelection, Scope.target?_ofSelection, find?_key_perm distinct.aliases reordered]

end

end CInterface
