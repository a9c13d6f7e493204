import CInterface.Resolution

/-!
# Assembling headers

The accepted declarations are resolved section by section. A declaration that runs into a cycle of aliases is
left out, and so is, round by round, every declaration that uses a type left out in the round before. The first
round knows declarations by their own names, later rounds by their names in the header.
-/

namespace CInterface

open Source

structure Resolved where
  source : Declaration
  item : Item
  deriving DecidableEq, Repr

namespace Resolved

/-- The first type that a declaration uses and that is among the names left out. -/
def dependency? (dropped : List String) (r : Resolved) : Option String :=
  (r.item.references.map (·.baseType.name)).find? (· ∈ dropped)

def diagnostic? (dropped : List String) (r : Resolved) : Option Diagnostic :=
  (r.dependency? dropped).map fun name => .of r.source (.dependency name)

def dependents (dropped : List String) (rs : List Resolved) : List Resolved :=
  rs.filter fun r => (r.dependency? dropped).isSome

def independents (dropped : List String) (rs : List Resolved) : List Resolved :=
  rs.filter fun r => (r.dependency? dropped).isNone

theorem length_independents_lt {dropped : List String} {rs : List Resolved}
    (h : dependents dropped rs ≠ []) : (independents dropped rs).length < rs.length := by
  obtain ⟨r, hr⟩ := List.exists_mem_of_ne_nil _ h
  obtain ⟨mem, dependent⟩ := List.mem_filter.1 hr
  rw [independents, List.length_filter_lt_length_iff_exists]
  exact ⟨r, mem, by simpa [Option.isSome_iff_ne_none] using dependent⟩

end Resolved

/-- Leaves out, round by round, what depends on the names left out before: what is kept, and a diagnostic for
each declaration that is not. A round that leaves out nothing is the last. -/
def prune (dropped : List String) (rs : List Resolved) : List Resolved × List Diagnostic :=
  if _h : Resolved.dependents dropped rs = [] then (rs, [])
  else
    let names := (Resolved.dependents dropped rs).map (·.item.name)
    let next := prune names (Resolved.independents dropped rs)
    (next.1, rs.filterMap (·.diagnostic? dropped) ++ next.2)
termination_by rs.length
decreasing_by exact Resolved.length_independents_lt _h

/-- A header with what was reported on the way to it. -/
structure Assembly where
  header : Header
  diagnostics : List Diagnostic
  events : List Event
  deriving DecidableEq, Repr

namespace Assembly

/-- The form of a declaration in the header, if its types resolve. -/
def resolved? (scope : Scope) (d : Declaration) : Option Resolved :=
  match scope.resolveDeclaration d with
  | .ok item => some ⟨d, item⟩
  | .error _ => none

/-- The diagnostic for a declaration whose types run into a cycle. -/
def cycle? (scope : Scope) (d : Declaration) : Option Diagnostic :=
  match scope.resolveDeclaration d with
  | .ok _ => none
  | .error c => some (.of d (.aliasCycle c.chain))

/-- What happens while a declaration is resolved, and that it is left out if it is. -/
def declarationEvents (scope : Scope) (d : Declaration) : List Event :=
  scope.declarationEvents d ++ (cycle? scope d).toList.map (.skipping .generation)

/-- The header of a list of declarations for a target. -/
def of (ds : List Declaration) (target : String) : Assembly :=
  let selection := Selection.of ds
  let scope := Scope.ofSelection selection
  let candidates := selection.inSections
  let cycles := candidates.filterMap (cycle? scope)
  let (kept, dependents) := prune (cycles.map (·.name)) (candidates.filterMap (resolved? scope))
  ⟨Header.ofItems target (kept.map (·.item)), selection.diagnostics ++ cycles ++ dependents,
    selection.events ++ candidates.flatMap (declarationEvents scope)
      ++ dependents.map (.skipping .generation)⟩

end Assembly

end CInterface
