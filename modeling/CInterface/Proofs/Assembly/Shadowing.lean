import CInterface.Proofs.Assembly.Accounting
import CInterface.Proofs.Assembly.Cycles
import CInterface.Proofs.Resolution.Scopes
import CInterface.Proofs.Selection.Parts

/-!
# Declarations under the name of an exported type

A declaration that is not accepted may have the name of a type that the header defines. What it stands for never shows:
whatever resolves with it and without it resolves to the same. But the alias table takes it, so that it can make a
chain of aliases close under the name of the exported type, or keep it from closing.
-/

namespace CInterface.Assembly

open Source

variable {before after : List Declaration} {d : Declaration} {target : String}

/-- A declaration that is not accepted though it has the name of a type that is. -/
structure Shadowed (before : List Declaration) (d : Declaration) (after : List Declaration) : Prop where
  refused : verdict (Selection.of before).accepted d = .internal ∨
    ∃ kind holder, verdict (Selection.of before).accepted d = .refused (.duplicateName kind holder)
  shadow : d.name ∈ (Selection.of (before ++ d :: after)).exportedNames

/-- Without a declaration the header is the same, and the diagnostics are but for its own. -/
structure NoEffect (before : List Declaration) (d : Declaration) (after : List Declaration) (target : String) :
    Prop where
  header : (of (before ++ d :: after) target).header = (of (before ++ after) target).header
  diagnostics : ∃ others,
    (of (before ++ after) target).diagnostics = (Selection.of before).diagnostics ++ others ∧
      (of (before ++ d :: after) target).diagnostics = (Selection.of before).diagnostics ++
        (Selection.diagnostic? (d, verdict (Selection.of before).accepted d)).toList ++ others

/-- With and without a declaration the same accepted ones run into the same cycles. -/
def SameCycles (before : List Declaration) (d : Declaration) (after : List Declaration) : Prop :=
  ∀ e ∈ (Selection.of (before ++ after)).accepted, ∀ c,
    (scope (before ++ d :: after)).resolveDeclaration e = .error c ↔
      (scope (before ++ after)).resolveDeclaration e = .error c

theorem Shadowed.not_accepted (h : Shadowed before d after) : verdict (Selection.of before).accepted d ≠ .accepted := by
  rcases h.refused with internal | ⟨kind, holder, duplicate⟩
  · simp [internal]
  · simp [duplicate]

theorem Shadowed.accepted (h : Shadowed before d after) :
    (Selection.of (before ++ d :: after)).accepted = (Selection.of (before ++ after)).accepted :=
  Selection.accepted_without after h.not_accepted

/-- Only the name of the declaration itself can be looked up differently without it. -/
theorem target?_without {name : String} (other : name ≠ d.name) :
    (scope (before ++ d :: after)).target? name = (scope (before ++ after)).target? name := by
  have passed : (supportedAliases [d]).find? (·.name == name) = none := by
    refine List.find?_eq_none.2 fun a ha same => other ?_
    obtain ⟨mem, -⟩ := mem_supportedAliases.1 ha
    rw [← List.mem_singleton.1 mem]
    exact (beq_iff_eq.1 same).symm
  rw [scope, scope, Scope.target?_ofSelection, Scope.target?_ofSelection, supportedAliases_append,
    supportedAliases_cons, supportedAliases_append, List.find?_append, List.find?_append, List.find?_append, passed,
    Option.none_or]

theorem Shadowed.agree (h : Shadowed before d after) {e : Declaration} {item item' : Item}
    (whole : (scope (before ++ d :: after)).resolveDeclaration e = .ok item)
    (rest : (scope (before ++ after)).resolveDeclaration e = .ok item') : item = item' := by
  refine Scope.resolveDeclaration_agree (fun name hidden => target?_without fun same => ?_)
    (exported_congr h.accepted) whole rest
  exact hidden (same ▸ h.shadow)

theorem Shadowed.alike (h : Shadowed before d after) (cycles : SameCycles before d after) {e : Declaration}
    (he : e ∈ (Selection.of (before ++ d :: after)).accepted) :
    (scope (before ++ d :: after)).resolveDeclaration e = (scope (before ++ after)).resolveDeclaration e := by
  have same := cycles e (h.accepted ▸ he)
  cases whole : (scope (before ++ d :: after)).resolveDeclaration e with
  | error c => exact ((same c).1 whole).symm
  | ok item =>
    cases rest : (scope (before ++ after)).resolveDeclaration e with
    | error c => cases whole.symm.trans ((same c).2 rest)
    | ok item' => rw [h.agree whole rest]

theorem Shadowed.noEffect (h : Shadowed before d after) (cycles : SameCycles before d after) (target : String) :
    NoEffect before d after target := by
  obtain ⟨emitted, reports⟩ := emitted_reports_congr h.accepted fun e he => h.alike cycles he
  obtain ⟨others, rest, whole⟩ := Selection.diagnostics_without after h.not_accepted
  refine ⟨by rw [header_of, header_of, emitted], others ++ (Assembly.reports (before ++ after)).map fun r =>
    Diagnostic.of r.1 r.2, ?_, ?_⟩
  · rw [diagnostics_of, rest, List.append_assoc]
  · rw [diagnostics_of, whole, reports, List.append_assoc]

/-- If nothing changes but the report on the declaration itself, the same declarations run into the same cycles. -/
theorem Shadowed.sameCycles (h : Shadowed before d after) (noEffect : NoEffect before d after target) :
    SameCycles before d after := by
  have own : (Selection.diagnostic? (d, verdict (Selection.of before).accepted d)).toList.filter (·.cause.isCycle) =
      [] := by
    rcases h.refused with internal | ⟨kind, holder, duplicate⟩
    · rw [internal]
      rfl
    · rw [duplicate]
      rfl
  have same : (Selection.of (before ++ after)).inSections.filterMap (cycle? (scope (before ++ d :: after))) =
      (Selection.of (before ++ after)).inSections.filterMap (cycle? (scope (before ++ after))) := by
    obtain ⟨others, rest, whole⟩ := noEffect.diagnostics
    rw [← filter_isCycle_diagnostics (before ++ after) target, ← inSections_congr h.accepted,
      ← filter_isCycle_diagnostics (before ++ d :: after) target, rest, whole]
    simp only [List.filter_append, own, List.append_nil]
  have aliases (a a' : Alias) (ha : .alias a ∈ (Selection.of (before ++ after)).inSections)
      (ha' : .alias a' ∈ (Selection.of (before ++ after)).inSections) (names : a.name = a'.name) : a = a' :=
    Declaration.alias.inj (Selection.eq_of_headerName_eq (Selection.mem_inSections.1 ha)
      (Selection.mem_inSections.1 ha') names)
  intro e he
  exact cycles_of_diagnostics (fun name => target?_without) (inSections_nodup _) aliases same
    (Selection.mem_inSections.2 he)

/-- A declaration that is not accepted changes neither what is accepted nor what anything resolves to that resolves
without it. It has no effect precisely if the same declarations run into the same cycles with it and without it, and
only a supported alias that is the first of its name can have one. -/
theorem shadowed_noEffect_iff (h : Shadowed before d after) (target : String) :
    let whole := before ++ d :: after
    let rest := before ++ after
    (Selection.of whole).accepted = (Selection.of rest).accepted ∧
      (∀ e item item', (scope whole).resolveDeclaration e = .ok item → (scope rest).resolveDeclaration e = .ok item' →
        item = item') ∧
      (NoEffect before d after target ↔ SameCycles before d after) ∧
      ((∀ a, d = .alias a → a.isSupported = true → a.name ∈ (supportedAliases before).map Alias.name) →
        NoEffect before d after target) := by
  intro whole rest
  refine ⟨h.accepted, fun e item item' => h.agree, ⟨h.sameCycles, fun cycles => h.noEffect cycles target⟩,
    fun later => h.noEffect (fun e he c => ?_) target⟩
  have same : scope whole = scope rest := by
    rw [scope, scope, Scope.ofSelection, Scope.ofSelection, Selection.aliases_without after later,
      Selection.exportedNames, Selection.exportedNames, h.accepted]
  rw [same]

/-- An exported struct and a function that takes a pointer to it. -/
def node : Declaration := .struct ⟨"Node", [⟨"value", .primitive .i32⟩], true, true, none⟩

def nodeFree : Declaration :=
  .function ⟨"node_free", [⟨"node", .pointer true (.named "Node" [])⟩], .primitive .void, true, true, true, none, none⟩

/-- An alias that is refused, since its name is that of the struct. -/
def nodeAlias (target : TypeExpr) : Declaration := .alias ⟨"Node", target, [], true, none⟩

theorem shadowed_nodeAlias {target : TypeExpr} (plain : target.isParameterized = false) :
    Shadowed [node] (nodeAlias target) [nodeFree] := by
  have accepted : (Selection.of [node]).accepted = [node] := by decide +kernel
  have refused : verdict (Selection.of [node]).accepted (nodeAlias target) =
      .refused (.duplicateName .struct "Node") := by
    rw [accepted, verdict]
    simp [nodeAlias, node, Declaration.isEligible, Declaration.unsupported?, Alias.isSupported, plain,
      Declaration.headerName, Declaration.kind, Declaration.name]
  refine ⟨.inr ⟨_, _, refused⟩, ?_⟩
  have same : (Selection.of ([node] ++ nodeAlias target :: [nodeFree])).accepted =
      (Selection.of ([node] ++ [nodeFree])).accepted := Selection.accepted_without _ (by simp [refused])
  have rest : (Selection.of ([node] ++ [nodeFree])).accepted = [node, nodeFree] := by decide +kernel
  rw [Selection.exportedNames, same, rest]
  exact List.mem_cons_self

/-- The refused alias of itself makes the function run into a cycle. -/
theorem not_noEffect_nodeAlias :
    Shadowed [node] (nodeAlias (.named "Node" [])) [nodeFree] ∧
      ¬ NoEffect [node] (nodeAlias (.named "Node" [])) [nodeFree] "lib.h" := by
  refine ⟨shadowed_nodeAlias rfl, fun h => ?_⟩
  have whole : ((of [node, nodeAlias (.named "Node" []), nodeFree] "lib.h").header.items.map Item.name) = ["Node"] := by
    decide +kernel
  have rest : ((of [node, nodeFree] "lib.h").header.items.map Item.name) = ["Node", "node_free"] := by decide +kernel
  have same := congrArg (fun h => h.items.map Item.name) h.header
  change _ = (of [node, nodeFree] "lib.h").header.items.map Item.name at same
  rw [rest] at same
  exact absurd (whole.symm.trans same) (by decide)

/-- The refused alias of a number does nothing. -/
theorem noEffect_nodeAlias :
    Shadowed [node] (nodeAlias (.primitive .i32)) [nodeFree] ∧
      NoEffect [node] (nodeAlias (.primitive .i32)) [nodeFree] "lib.h" := by
  have shadowed : Shadowed [node] (nodeAlias (.primitive .i32)) [nodeFree] := shadowed_nodeAlias rfl
  have alike : (Selection.of [node, nodeFree]).accepted.map
      (scope [node, nodeAlias (.primitive .i32), nodeFree]).resolveDeclaration =
        (Selection.of [node, nodeFree]).accepted.map (scope [node, nodeFree]).resolveDeclaration := by decide +kernel
  refine ⟨shadowed, (shadowed_noEffect_iff shadowed "lib.h").2.2.1.2 fun e he c => ?_⟩
  exact iff_of_eq (congrArg (· = Except.error c) (List.map_inj_left.1 alike e he))

end CInterface.Assembly
