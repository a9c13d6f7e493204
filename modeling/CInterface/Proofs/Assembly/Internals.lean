import CInterface.Proofs.Assembly.Reordering
import CInterface.Proofs.Selection.Rule

/-!
# Internal declarations

What is not marked for export can be taken out of the input: an enumeration, a struct or a function at once, whatever
its name, and an alias if it is generic or if nothing that stays refers to it by name. Neither the header nor a
diagnostic tells the difference.
-/

namespace CInterface

open Source

/-- Some members of a list are taken out, each of which has a property. -/
inductive Deletes {α : Type} (P : α → Prop) : List α → List α → Prop where
  | done : Deletes P [] []
  | keep (x : α) {xs rest : List α} (h : Deletes P xs rest) : Deletes P (x :: xs) (x :: rest)
  | drop {x : α} {xs rest : List α} (out : P x) (h : Deletes P xs rest) : Deletes P (x :: xs) rest

/-- Internal is what is not marked for export, but for aliases that can be followed by what stays in the input: those
that are not generic and whose name stands under the pointers of some type there. Names in type arguments do not count,
for no alias is followed from there. -/
inductive Internal (rest : List Declaration) : Declaration → Prop where
  | enumeration (e : Enumeration) (unmarked : (Declaration.enumeration e).isEligible = false) :
      Internal rest (.enumeration e)
  | struct (s : Struct) (unmarked : (Declaration.struct s).isEligible = false) : Internal rest (.struct s)
  | function (f : Function) (unmarked : (Declaration.function f).isEligible = false) : Internal rest (.function f)
  | generic (a : Alias) (unmarked : a.isPublic = false) (generic : a.IsGeneric) : Internal rest (.alias a)
  | unused (a : Alias) (unmarked : a.isPublic = false)
      (unused : ∀ d ∈ rest, ∀ t ∈ d.types, t.baseName? ≠ some a.name) : Internal rest (.alias a)

variable {P : Declaration → Prop} {ds rest : List Declaration} {d : Declaration}

theorem Deletes.refl (ds : List Declaration) : Deletes P ds ds := by
  induction ds with
  | nil => exact .done
  | cons d ds ih => exact ih.keep d

theorem Internal.unmarked (h : Internal rest d) : d.isEligible = false := by
  cases h with
  | enumeration _ unmarked => exact unmarked
  | struct _ unmarked => exact unmarked
  | function _ unmarked => exact unmarked
  | generic _ unmarked _ => exact unmarked
  | unused _ unmarked _ => exact unmarked

/-- A name that a type of the input refers to is not that of an internal alias that could be followed. -/
theorem Internal.other_name (h : Internal rest d) {name : String}
    (used : ∃ e ∈ rest, ∃ t ∈ e.types, t.baseName? = some name) :
    ∀ a ∈ supportedAliases [d], a.name ≠ name := by
  intro a ha same
  obtain ⟨mem, supported⟩ := mem_supportedAliases.1 ha
  cases List.mem_singleton.1 mem
  cases h with
  | generic _ _ generic => exact Alias.isSupported_iff.1 supported generic
  | unused _ _ unused =>
    obtain ⟨e, he, t, ht, base⟩ := used
    exact unused e he t ht (same ▸ base)

namespace Selection

/-- Without declarations that are not marked for export, the same is accepted and refused. -/
theorem after_deletes (deletes : Deletes P ds rest) (unmarked : ∀ d, P d → d.isEligible = false)
    (taken : List Declaration) :
    acceptedAfter taken ds = acceptedAfter taken rest ∧ refusedAfter taken ds = refusedAfter taken rest := by
  induction deletes generalizing taken with
  | done => exact ⟨rfl, rfl⟩
  | @drop d ds rest out _ ih =>
    have internal : verdict taken d = .internal := verdict_eq_internal.2 (unmarked d out)
    rw [acceptedAfter_cons_other ds (by simp [internal]), refusedAfter_cons_internal ds internal]
    exact ih taken
  | @keep d ds rest _ ih =>
    cases hv : verdict taken d with
    | internal =>
      have out : verdict taken d ≠ .accepted := by simp [hv]
      rw [acceptedAfter_cons_other ds out, acceptedAfter_cons_other rest out, refusedAfter_cons_internal ds hv,
        refusedAfter_cons_internal rest hv]
      exact ih taken
    | accepted =>
      rw [acceptedAfter_cons_accepted ds hv, acceptedAfter_cons_accepted rest hv, refusedAfter_cons_accepted ds hv,
        refusedAfter_cons_accepted rest hv]
      exact (ih (taken ++ [d])).imp_left (congrArg _)
    | refused cause =>
      have out : verdict taken d ≠ .accepted := by simp [hv]
      rw [acceptedAfter_cons_other ds out, acceptedAfter_cons_other rest out, refusedAfter_cons_refused ds hv,
        refusedAfter_cons_refused rest hv]
      exact (ih taken).imp_right (congrArg _)

end Selection

/-- Names are looked up alike without aliases of other names. -/
theorem find?_supportedAliases_deletes (deletes : Deletes P ds rest) {name : String}
    (other : ∀ d, P d → ∀ a ∈ supportedAliases [d], a.name ≠ name) :
    (supportedAliases ds).find? (·.name == name) = (supportedAliases rest).find? (·.name == name) := by
  induction deletes with
  | done => rfl
  | @drop d ds rest out _ ih =>
    have passed : (supportedAliases [d]).find? (·.name == name) = none :=
      List.find?_eq_none.2 fun a ha => by simpa using other d out a ha
    rw [supportedAliases_cons, List.find?_append, passed, Option.none_or, ih]
  | @keep d ds rest _ ih =>
    rw [supportedAliases_cons d ds, supportedAliases_cons d rest, List.find?_append, List.find?_append, ih]

namespace Assembly

section

variable (deletes : Deletes (Internal rest) ds rest)

include deletes

theorem accepted_deletes : (Selection.of rest).accepted = (Selection.of ds).accepted :=
  (Selection.after_deletes deletes (fun _ => Internal.unmarked) []).1.symm

theorem selection_diagnostics_deletes : (Selection.of rest).diagnostics = (Selection.of ds).diagnostics := by
  rw [Selection.diagnostics_eq, Selection.diagnostics_eq,
    (Selection.after_deletes deletes (fun _ => Internal.unmarked) []).2]

/-- What stays resolves as before: no chain that starts in it comes to an alias that was taken out. -/
theorem resolveDeclaration_deletes (stays : d ∈ rest) :
    (scope rest).resolveDeclaration d = (scope ds).resolveDeclaration d := by
  have exported := exported_congr (accepted_deletes deletes)
  refine Scope.resolveDeclaration_congr fun t ht => ?_
  refine Scope.resolve_congr_on (fun name => ∃ e ∈ rest, ∃ u ∈ e.types, u.baseName? = some name)
    (fun name u _ target next base => ?_) (fun name used => ?_) (fun name => by rw [exported]) _ t
    (fun name base => ⟨d, stays, t, ht, base⟩)
  · -- the alias that is followed stays too, and what it stands for is one of its types
    rw [scope, Scope.target?_ofSelection, Option.map_eq_some_iff] at target
    obtain ⟨a, found, rfl⟩ := target
    have mem := (mem_supportedAliases.1 (List.mem_of_find?_eq_some found)).1
    exact ⟨.alias a, mem, a.target, List.mem_singleton_self _, base⟩
  · rw [scope, scope, Scope.target?_ofSelection, Scope.target?_ofSelection,
      find?_supportedAliases_deletes deletes fun e out => out.other_name used]

end

/-- Internal declarations taken out of the input, any number of them and whatever their names, change neither the header
nor the diagnostics. -/
theorem internals_invisible (deletes : Deletes (Internal rest) ds rest) (target : String) :
    (of rest target).header = (of ds target).header ∧ (of rest target).diagnostics = (of ds target).diagnostics := by
  obtain ⟨emitted, reports⟩ := emitted_reports_congr (accepted_deletes deletes) fun e he =>
    resolveDeclaration_deletes deletes ((Selection.accepted_sublist rest).subset he)
  constructor
  · rw [header_of, header_of, emitted]
  · rw [diagnostics_of, diagnostics_of, selection_diagnostics_deletes deletes, reports]

/-- Of these declarations in front of the fleet two have the name of an exported struct, one that of an exported
function, and one runs into the cycle of the fleet. -/
def crew : List Declaration :=
  [.struct ⟨"Engine", [], false, true, none⟩, .alias ⟨"Ring", .named "Box" [.primitive .i32], [], false, none⟩,
    .function ⟨"engine_run", [], .named "Loop" [], true, false, true, none, none⟩,
    .alias ⟨"Spare", .pointer true (.named "Loop" []), [], false, none⟩]

theorem internals_invisible_crew :
    Deletes (Internal fleet) (crew ++ fleet) fleet ∧
      (of fleet "lib.h").header = (of (crew ++ fleet) "lib.h").header ∧
      (of fleet "lib.h").diagnostics = (of (crew ++ fleet) "lib.h").diagnostics ∧
      (of fleet "lib.h").header.items.length = 2 := by
  have generic : Alias.IsGeneric ⟨"Ring", .named "Box" [.primitive .i32], [], false, none⟩ :=
    .inr ⟨[], "Box", [.primitive .i32], by simp, rfl⟩
  have deletes : Deletes (Internal fleet) (crew ++ fleet) fleet :=
    .drop (.struct _ rfl) <| .drop (.generic _ rfl generic) <| .drop (.function _ rfl) <|
      .drop (.unused _ rfl (by decide)) <| .refl fleet
  obtain ⟨header, diagnostics⟩ := internals_invisible deletes "lib.h"
  exact ⟨deletes, header, diagnostics, by decide +kernel⟩

end Assembly

end CInterface
