import CInterface.Proofs.Assembly.Accounting
import CInterface.Proofs.Resolution.Scopes
import CInterface.Proofs.Selection.Reordering

/-!
# The order of the input

Where names are distinct, the order of the input only decides the order of the output: in any order the same
declarations are emitted in the same forms, the sections follow the input, and the same is reported for the same
reasons. How declarations of different kinds are interleaved does not matter to the header at all.
-/

namespace CInterface

open Source

theorem Header.eq_of_ofKind {h h' : Header} (target : h.target = h'.target)
    (sections : ∀ kind, h.ofKind kind = h'.ofKind kind) : h = h' := by
  obtain ⟨t, typedefs, enumerations, structs, prototypes⟩ := h
  obtain ⟨t', typedefs', enumerations', structs', prototypes'⟩ := h'
  have ts : typedefs = typedefs' := (List.map_inj_right fun _ _ => Item.typedef.inj).1 (sections .typedef)
  have es : enumerations = enumerations' :=
    (List.map_inj_right fun _ _ => Item.enumeration.inj).1 (sections .enumeration)
  have ss : structs = structs' := (List.map_inj_right fun _ _ => Item.struct.inj).1 (sections .struct)
  have ps : prototypes = prototypes' := (List.map_inj_right fun _ _ => Item.prototype.inj).1 (sections .function)
  subst ts es ss ps
  exact congrArg (Header.mk · _ _ _ _) target

/-- A list is, up to its order, what it holds of each kind. -/
theorem perm_of_kinds {ds ds' : List Declaration}
    (kinds : ∀ kind, ds.filter (·.kind == kind) = ds'.filter (·.kind == kind)) : ds.Perm ds' := by
  have perm (ds : List Declaration) := Selection.inSections_perm ⟨ds, [], [], []⟩
  refine (perm ds).symm.trans ?_
  simp only [Selection.inSections, Selection.ofKind, kinds]
  exact perm ds'

namespace Assembly

variable {ds ds' : List Declaration} {d : Declaration} {item : Item}

/-- The form in the header of a declaration that is emitted. -/
def shown (ds : List Declaration) (d : Declaration) : Option Item :=
  if d ∈ (emitted ds).map (·.source) then ((scope ds).resolveDeclaration d).toOption else none

theorem shown_source {r : Resolved} (h : r ∈ emitted ds) : shown ds r.source = some r.item := by
  rw [shown, if_pos (List.mem_map_of_mem h), (emitted_resolves h).2]
  rfl

theorem section_eq (ds : List Declaration) (target : String) (kind : Kind) :
    (of ds target).header.ofKind kind = ((emittedSources ds).filter (·.kind == kind)).filterMap (shown ds) := by
  rw [header_of, Header.ofItems_ofKind, List.filter_map, emittedSources_ofKind, ← emitted_ofKind, List.filterMap_map,
    ← List.filterMap_eq_map]
  exact List.filterMap_congr fun r hr => (shown_source (List.mem_filter.1 hr).1).symm

/-- With distinct names, a section shows the declarations of its kind in the order of the input. -/
theorem section_distinct (distinct : Distinct ds) (target : String) (kind : Kind) :
    (of ds target).header.ofKind kind = (ds.filter (·.kind == kind)).filterMap (shown ds) := by
  have sources : emittedSources ds = ds.filter (· ∈ (emitted ds).map (·.source)) := by
    rw [emittedSources, distinct.accepted, List.filter_filter]
    refine List.filter_congr fun d _ => ?_
    cases exportable : d.isExportable with
    | true => simp
    | false =>
      have out : d ∉ (emitted ds).map (·.source) := by
        intro mem
        obtain ⟨accepted, -⟩ := mem_emitted_source.1 mem
        rw [distinct.accepted, List.mem_filter, exportable] at accepted
        cases accepted.2
      simpa using out
  rw [section_eq, sources, List.filter_comm, List.filterMap_filter]
  refine List.filterMap_congr fun d _ => ?_
  by_cases shows : d ∈ (emitted ds).map (·.source)
  · simp [shows]
  · simp [shown, shows]

section

variable (distinct : Distinct ds) (perm : ds.Perm ds')

include distinct perm

theorem resolveDeclaration_reordered (d : Declaration) :
    (scope ds).resolveDeclaration d = (scope ds').resolveDeclaration d := by
  refine Scope.resolveDeclaration_congr fun t _ => Scope.resolve_congr (distinct.target?_eq perm) (fun name => ?_) _ t
  exact (((distinct.accepted_perm perm).filter _).map _).mem_iff

theorem inSections_reordered : (Selection.of ds).inSections.Perm (Selection.of ds').inSections :=
  ((Selection.inSections_perm _).trans (distinct.accepted_perm perm)).trans (Selection.inSections_perm _).symm

/-- In another order the same is emitted and reported. -/
theorem emitted_reports_reordered : (emitted ds).Perm (emitted ds') ∧ (reports ds).Perm (reports ds') := by
  have alike := resolveDeclaration_reordered distinct perm
  have sections := inSections_reordered distinct perm
  have resolved : (candidates ds).Perm (candidates ds') := by
    have same : resolved? (scope ds) = resolved? (scope ds') := funext fun d => resolved?_congr (alike d)
    rw [candidates, same]
    exact sections.filterMap _
  have cycles : (cycleNames ds).Perm (cycleNames ds') := by
    have same : cycle? (scope ds) = cycle? (scope ds') := funext fun d => cycle?_congr (alike d)
    rw [cycleNames, same]
    exact (sections.filterMap _).map _
  have own : ((Selection.of ds).inSections.filterMap (cycleReport? (scope ds))).Perm
      ((Selection.of ds').inSections.filterMap (cycleReport? (scope ds'))) := by
    have same : cycleReport? (scope ds) = cycleReport? (scope ds') := funext fun d => cycleReport?_congr (alike d)
    rw [same]
    exact sections.filterMap _
  obtain ⟨kept, blamed⟩ := prune_reordered (fun _ => cycles.mem_iff) resolved
  exact ⟨kept, own.append (blamed.map _)⟩

theorem shown_reordered : shown ds = shown ds' := by
  funext d
  have sources := (((emitted_reports_reordered distinct perm).1.map (·.source)).mem_iff (a := d))
  simp only [shown, sources, resolveDeclaration_reordered distinct perm d]

end

/-- Where no two aliases have one name and no two declarations would take one name in the header, the order of the
input only decides the order of the output. -/
theorem order_only_orders (distinct : Distinct ds) (perm : ds.Perm ds') (target : String) :
    (∀ kind, (of ds' target).header.ofKind kind = (ds'.filter (·.kind == kind)).filterMap (shown ds)) ∧
      (of ds' target).header.items.Perm (of ds target).header.items ∧
      (of ds' target).diagnostics.Perm (of ds target).diagnostics ∧
      ∀ interleaved, (∀ kind, interleaved.filter (·.kind == kind) = ds'.filter (·.kind == kind)) →
        (of interleaved target).header = (of ds' target).header := by
  have distinct' := distinct.perm perm
  obtain ⟨emitted, reports⟩ := emitted_reports_reordered distinct perm
  refine ⟨fun kind => ?_, ?_, ?_, fun interleaved kinds => Header.eq_of_ofKind rfl fun kind => ?_⟩
  · rw [section_distinct distinct', shown_reordered distinct perm]
  · rw [header_of, header_of]
    refine (Header.ofItems_items_perm target _).trans (.trans ?_ (Header.ofItems_items_perm target _).symm)
    exact (emitted.map _).symm
  · rw [diagnostics_of, diagnostics_of]
    exact ((distinct.diagnostics_perm perm).append (reports.map _)).symm
  · have other := (perm_of_kinds kinds).symm
    rw [section_distinct (distinct'.perm other), section_distinct distinct', kinds, shown_reordered distinct' other]

/-- Declarations of which some run into a cycle, some depend on these and one is generic. -/
def fleet : List Declaration :=
  [.alias ⟨"Loop", .named "Loop" [], [], false, none⟩,
    .struct ⟨"Engine", [⟨"speed", .primitive .i32⟩], true, true, none⟩,
    .struct ⟨"Ring", [⟨"loop", .named "Loop" []⟩], true, true, none⟩,
    .function ⟨"ring_run", [⟨"r", .pointer true (.named "Ring" [])⟩], .primitive .void, true, true, true, none, none⟩,
    .function ⟨"engine_run", [⟨"e", .pointer true (.named "Engine" [])⟩], .primitive .void, true, true, true, none,
      none⟩,
    .alias ⟨"Boxed", .named "Box" [.primitive .i32], [], true, none⟩]

/-- Backwards, the same two declarations are emitted and the same three are reported. -/
theorem order_only_orders_fleet :
    Distinct fleet ∧ fleet.Perm fleet.reverse ∧
      (of fleet.reverse "lib.h").header.items.Perm (of fleet "lib.h").header.items ∧
      (of fleet.reverse "lib.h").diagnostics.Perm (of fleet "lib.h").diagnostics ∧
      (of fleet "lib.h").header.items.length = 2 ∧ (of fleet "lib.h").diagnostics.length = 3 := by
  have distinct : Distinct fleet := ⟨by decide +kernel, by decide +kernel⟩
  have perm : fleet.Perm fleet.reverse := (List.reverse_perm fleet).symm
  obtain ⟨-, items, diagnostics, -⟩ := order_only_orders distinct perm "lib.h"
  exact ⟨distinct, perm, items, diagnostics, by decide +kernel, by decide +kernel⟩

end Assembly

end CInterface
