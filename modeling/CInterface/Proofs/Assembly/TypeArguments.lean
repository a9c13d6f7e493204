import CInterface.Proofs.Assembly.Accounting
import CInterface.Proofs.Resolution.TypeArguments
import CInterface.Proofs.Selection.Rule

/-!
# Type arguments in an assembly

Type arguments of fields, parameters and return types can be taken out of the input: the header and the diagnostics do
not tell the difference. Each type of an accepted declaration that has them under its pointers is warned of when it is
resolved, once. Aliases of type applications are not supported, so no warning comes from following an alias.
-/

namespace CInterface

open Source

section

variable (taken ds : List Declaration) (d : Declaration)

theorem verdict_withoutArguments :
    verdict (taken.map Declaration.withoutArguments) d.withoutArguments = verdict taken d := by
  have holder : (taken.map Declaration.withoutArguments).find? (·.headerName == d.withoutArguments.headerName) =
      (taken.find? (·.headerName == d.headerName)).map Declaration.withoutArguments := by
    simp only [List.find?_map, Function.comp_def, Declaration.headerName_withoutArguments]
  rw [verdict, verdict, Declaration.isEligible_withoutArguments, Declaration.unsupported?_withoutArguments, holder]
  cases taken.find? (·.headerName == d.headerName) <;> simp

theorem judge_withoutArguments :
    judge (taken.map Declaration.withoutArguments) (ds.map Declaration.withoutArguments) =
      (judge taken ds).map (Prod.map Declaration.withoutArguments id) := by
  induction ds generalizing taken with
  | nil => rfl
  | cons d ds ih =>
    have later := ih (taken ++ [d])
    rw [List.map_append, List.map_singleton] at later
    rw [List.map_cons]
    cases hv : verdict taken d with
    | accepted => simp [judge, verdict_withoutArguments, hv, later]
    | internal => simp [judge, verdict_withoutArguments, hv, ih]
    | refused cause => simp [judge, verdict_withoutArguments, hv, ih]

end

namespace Selection

variable (ds : List Declaration)

theorem judged_withoutArguments :
    judge [] (ds.map Declaration.withoutArguments) = (judge [] ds).map (Prod.map Declaration.withoutArguments id) :=
  judge_withoutArguments [] ds

theorem accepted_withoutArguments :
    (of (ds.map Declaration.withoutArguments)).accepted = (of ds).accepted.map Declaration.withoutArguments := by
  change (judge [] _).filterMap accepted? = ((judge [] ds).filterMap accepted?).map _
  rw [judged_withoutArguments, List.filterMap_map, List.map_filterMap]
  refine congrArg (List.filterMap · _) (funext fun p => ?_)
  rcases p with ⟨d, _ | _ | cause⟩ <;> rfl

theorem diagnostics_withoutArguments :
    (of (ds.map Declaration.withoutArguments)).diagnostics = (of ds).diagnostics := by
  change (judge [] _).filterMap diagnostic? = (judge [] ds).filterMap diagnostic?
  rw [judged_withoutArguments, List.filterMap_map]
  refine congrArg (List.filterMap · _) (funext fun p => ?_)
  rcases p with ⟨d, _ | _ | cause⟩
  · rfl
  · rfl
  · simp [diagnostic?, Diagnostic.of]

theorem aliases_withoutArguments :
    (of (ds.map Declaration.withoutArguments)).aliases = (of ds).aliases := by
  simp [of, List.filterMap_map]

theorem ofKind_withoutArguments (kind : Kind) :
    (of (ds.map Declaration.withoutArguments)).ofKind kind =
      ((of ds).ofKind kind).map Declaration.withoutArguments := by
  simp [ofKind, accepted_withoutArguments, List.filter_map, Function.comp_def]

theorem inSections_withoutArguments :
    (of (ds.map Declaration.withoutArguments)).inSections = (of ds).inSections.map Declaration.withoutArguments := by
  simp [inSections, ofKind_withoutArguments]

theorem exportedNames_withoutArguments :
    (of (ds.map Declaration.withoutArguments)).exportedNames = (of ds).exportedNames := by
  simp [exportedNames, accepted_withoutArguments, List.filter_map, Function.comp_def]

end Selection

namespace Assembly

/-- A resolved declaration whose source is without type arguments. -/
def sourceWithoutArguments (r : Resolved) : Resolved := { r with source := r.source.withoutArguments }

variable (ds : List Declaration) (target : String)

theorem scope_withoutArguments : scope (ds.map Declaration.withoutArguments) = scope ds := by
  rw [scope, scope, Scope.ofSelection, Scope.ofSelection, Selection.aliases_withoutArguments,
    Selection.exportedNames_withoutArguments]

theorem cycle?_withoutArguments (s : Scope) (d : Declaration) : cycle? s d.withoutArguments = cycle? s d := by
  simp [cycle?, Scope.resolveDeclaration_withoutArguments, Diagnostic.of]

theorem resolved?_withoutArguments (s : Scope) (d : Declaration) :
    resolved? s d.withoutArguments = (resolved? s d).map sourceWithoutArguments := by
  rw [resolved?, resolved?, Scope.resolveDeclaration_withoutArguments]
  cases s.resolveDeclaration d <;> rfl

theorem cycles_withoutArguments :
    (Selection.of (ds.map Declaration.withoutArguments)).inSections.filterMap
        (cycle? (scope (ds.map Declaration.withoutArguments))) =
      (Selection.of ds).inSections.filterMap (cycle? (scope ds)) := by
  rw [scope_withoutArguments, Selection.inSections_withoutArguments, List.filterMap_map]
  exact congrArg (List.filterMap · _) (funext (cycle?_withoutArguments (scope ds)))

theorem candidates_withoutArguments :
    candidates (ds.map Declaration.withoutArguments) = (candidates ds).map sourceWithoutArguments := by
  rw [candidates, candidates, scope_withoutArguments, Selection.inSections_withoutArguments, List.filterMap_map,
    List.map_filterMap]
  exact congrArg (List.filterMap · _) (funext (resolved?_withoutArguments (scope ds)))

/-- The rounds leave out the same with and without type arguments. -/
theorem prune_withoutArguments :
    prune (cycleNames (ds.map Declaration.withoutArguments)) (candidates (ds.map Declaration.withoutArguments)) =
      (prune (cycleNames ds) (candidates ds)).map (List.map sourceWithoutArguments) id := by
  rw [cycleNames, cycles_withoutArguments, candidates_withoutArguments]
  refine prune_map sourceWithoutArguments (fun _ => rfl) (fun r cause => ?_) _ _
  simp [sourceWithoutArguments, Diagnostic.of]

theorem header_withoutArguments :
    (of (ds.map Declaration.withoutArguments) target).header = (of ds target).header := by
  rw [header_of, header_of, emitted, emitted, prune_withoutArguments, Prod.map_fst, List.map_map]
  rfl

theorem diagnostics_withoutArguments :
    (of (ds.map Declaration.withoutArguments) target).diagnostics = (of ds target).diagnostics := by
  rw [diagnostics_parts, diagnostics_parts, Selection.diagnostics_withoutArguments, cycles_withoutArguments,
    prune_withoutArguments, Prod.map_snd, id]

end Assembly

/-- What an alias that can be followed stands for is no type application. -/
theorem Source.Alias.target_plain {a : Alias} (supported : a.isSupported = true) :
    a.target.isParameterized = false := by
  rw [isSupported, Bool.and_eq_true, Bool.not_eq_true'] at supported
  exact supported.2

namespace Assembly

section

variable (ds : List Declaration) (target : String)

theorem scope_plain (name : String) (t : TypeExpr) (h : (scope ds).target? name = some t) :
    t.isParameterized = false := by
  rw [scope, Scope.target?_ofSelection, Option.map_eq_some_iff] at h
  obtain ⟨a, found, rfl⟩ := h
  exact Alias.target_plain (mem_supportedAliases.1 (List.mem_of_find?_eq_some found)).2

/-- The types that come to be resolved, but for those of aliases: the fields of the accepted structs, then the return
type and the parameters of each accepted function, each declaration up to its first type that runs into a cycle and
with that one. -/
def reachedTypes (ds : List Declaration) : List TypeExpr :=
  ((Selection.of ds).ofKind .struct ++ (Selection.of ds).ofKind .function).flatMap (scope ds).reachedTypes

/-- The accepted aliases and enumerations are resolved without a warning. -/
theorem quiet_of_kind {d : Declaration}
    (h : d ∈ (Selection.of ds).ofKind .typedef ++ (Selection.of ds).ofKind .enumeration) :
    ((scope ds).reachedTypes d).filterMap TypeExpr.warning? = [] := by
  refine List.filterMap_eq_nil_iff.2 fun t ht => TypeExpr.warning?_eq_none ?_
  replace ht := Scope.mem_types_of_reached ht
  rw [List.mem_append, Selection.ofKind, Selection.ofKind, List.mem_filter, List.mem_filter] at h
  rcases d with a | e | s | f
  · have accepted : Declaration.alias a ∈ (Selection.of ds).accepted := h.elim And.left And.left
    have plain : ¬ a.IsGeneric := fun generic => Selection.not_isGeneric_of_accepted accepted ⟨a, rfl, generic⟩
    rw [List.mem_singleton.1 ht]
    exact Alias.target_plain (Alias.isSupported_iff.2 plain)
  · cases ht
  · simp [Declaration.kind] at h
  · simp [Declaration.kind] at h

theorem declarationEvents_resolution (d : Declaration) :
    (declarationEvents (scope ds) d).filter Event.isResolutionWarning =
      ((scope ds).reachedTypes d).filterMap TypeExpr.warning? := by
  have report : ((cycle? (scope ds) d).toList.map (Event.skipping .generation)).filter Event.isResolutionWarning =
      [] := by
    cases cycle? (scope ds) d <;> rfl
  rw [declarationEvents, List.filter_append, Scope.declarationEvents_warnings (scope_plain ds), report,
    List.append_nil]

/-- The warnings of resolution are those for the types that come to be resolved. -/
theorem resolution_warnings :
    (of ds target).events.filter Event.isResolutionWarning = (reachedTypes ds).filterMap TypeExpr.warning? := by
  have selection : (Selection.of ds).events.filter Event.isResolutionWarning = [] := by
    refine List.filter_eq_nil_iff.2 fun e he => ?_
    simp [Event.isResolutionWarning, Selection.events_stage he]
  have rounds : ((prune (cycleNames ds) (candidates ds)).2.map (Event.skipping .generation)).filter
      Event.isResolutionWarning = [] := by
    refine List.filter_eq_nil_iff.2 fun e he => ?_
    obtain ⟨g, -, rfl⟩ := List.mem_map.1 he
    exact Bool.false_ne_true
  have sections : (Selection.of ds).inSections =
      ((Selection.of ds).ofKind .typedef ++ (Selection.of ds).ofKind .enumeration) ++
        ((Selection.of ds).ofKind .struct ++ (Selection.of ds).ofKind .function) := List.append_assoc ..
  rw [events_parts, List.filter_append, List.filter_append, selection, rounds, List.nil_append, List.append_nil,
    List.filter_flatMap, funext (declarationEvents_resolution ds), sections, List.flatMap_append,
    List.flatMap_eq_nil_iff.2 fun d hd => quiet_of_kind ds hd, List.nil_append, reachedTypes, List.filterMap_flatMap]

/-- A type behind the first cycle of its declaration is not reached. -/
example :
    (of [.alias ⟨"Loop", .named "Loop" [], [], false, none⟩,
        .struct ⟨"Dock", [⟨"cranes", .pointer true (.named "Vec" [.primitive .i32])⟩,
          ⟨"next", .named "Loop" [.primitive .u8]⟩, ⟨"log", .named "Box" [.primitive .u8]⟩], true, true, none⟩]
        "lib.h").events.filter Event.isResolutionWarning =
      [.argumentsIgnored "Vec" [.primitive .i32], .argumentsIgnored "Loop" [.primitive .u8]] := by
  decide +kernel

/-- Without type arguments there is nothing to warn of. -/
theorem resolution_warnings_withoutArguments :
    (of (ds.map Declaration.withoutArguments) target).events.filter Event.isResolutionWarning = [] := by
  rw [resolution_warnings, List.filterMap_eq_nil_iff]
  intro t ht
  obtain ⟨d, hd, ht⟩ := List.mem_flatMap.1 ht
  rw [Selection.ofKind_withoutArguments, Selection.ofKind_withoutArguments, ← List.map_append] at hd
  obtain ⟨e, he, rfl⟩ := List.mem_map.1 hd
  have kind : e.kind ≠ .typedef := by
    rcases List.mem_append.1 he with he | he
    · simp [beq_iff_eq.1 (List.mem_filter.1 he).2]
    · simp [beq_iff_eq.1 (List.mem_filter.1 he).2]
  replace ht := Scope.mem_types_of_reached ht
  rw [Declaration.types_withoutArguments e kind] at ht
  obtain ⟨u, -, rfl⟩ := List.mem_map.1 ht
  exact TypeExpr.warning?_eq_none u.isParameterized_withoutArguments

end

/-- Taking out all type arguments of fields, parameters and return types changes neither the header nor the diagnostics,
and leaves nothing that resolution warns of. With them, its warnings are one for each field of an accepted struct and
each return type and parameter of an accepted function that has a type application under its pointers, in the order of
resolution and up to the first cycle of a declaration. None comes from following an alias, for no alias that can be
followed stands for a type application. -/
theorem type_arguments_only_warned_of (ds : List Declaration) (target : String) :
    (of (ds.map Declaration.withoutArguments) target).header = (of ds target).header ∧
      (of (ds.map Declaration.withoutArguments) target).diagnostics = (of ds target).diagnostics ∧
      (of (ds.map Declaration.withoutArguments) target).events.filter Event.isResolutionWarning = [] ∧
      List.Forall₂ TypeExpr.WarnedBy ((reachedTypes ds).filter (·.isParameterized))
        ((of ds target).events.filter Event.isResolutionWarning) ∧
      ∀ a ∈ (Selection.of ds).aliases, a.target.isParameterized = false ∧
        ∀ visited, ((scope ds).resolveEvents visited a.target).filter Event.isResolutionWarning = [] := by
  refine ⟨header_withoutArguments ds target, diagnostics_withoutArguments ds target,
    resolution_warnings_withoutArguments ds target, ?_, fun a ha => ?_⟩
  · rw [resolution_warnings]
    have pairs := forall₂_filterMap (fun t => (TypeExpr.isSome_warning? t).symm) (reachedTypes ds)
    exact pairs.imp fun t e => TypeExpr.warnedBy_of_warning?
  · obtain ⟨-, -, -, plain, -⟩ := mem_aliases.1 ha
    have target_plain := Alias.target_plain (Alias.isSupported_iff.2 plain)
    refine ⟨target_plain, fun visited => ?_⟩
    rw [Scope.resolveEvents_warnings (scope_plain ds), TypeExpr.warning?_eq_none target_plain, Option.toList_none]

end Assembly

end CInterface
