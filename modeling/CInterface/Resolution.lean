import CInterface.Header.Basic
import CInterface.Selection

/-!
# Resolving types

A primitive becomes its C type and a pointer keeps its level, with a constant pointee if it is not mutable. A
name that is an alias is followed to the end of its chain, so that a chain that closes is always found; if the
name is exported the C type still refers to it by name, otherwise the alias is replaced by what it stands for.
Other exported names refer to themselves, and a name of which nothing is known is incomplete.

A chain of aliases is finite because no alias is entered twice: every step enters one more of the aliases that
have not been visited, and the type that it comes to is smaller than all aliases together.
-/

namespace CInterface

open Source

/-- What names mean during one generation: the aliases, the first of a name counting, and the names of the types
that the header will define. -/
structure Scope where
  aliases : List (String × TypeExpr)
  exported : List String
  deriving DecidableEq, Repr

/-- A chain of aliases that comes back to its last name. -/
structure Cycle where
  chain : List String
  deriving DecidableEq, Repr

def Cycle.message (c : Cycle) : String := Diagnostic.cycleText c.chain

namespace Scope

def ofSelection (s : Selection) : Scope :=
  ⟨s.aliases.map fun a => (a.name, a.target), s.exportedNames⟩

def target? (scope : Scope) (name : String) : Option TypeExpr := scope.aliases.lookup name

/-- How many aliases have not been visited. -/
def unvisited (scope : Scope) (visited : List String) : Nat :=
  (scope.aliases.filter fun a => !visited.contains a.1).length

private theorem mem_of_lookup {aliases : List (String × TypeExpr)} {name : String} {t : TypeExpr}
    (h : aliases.lookup name = some t) : (name, t) ∈ aliases := by
  induction aliases with
  | nil => cases h
  | cons a rest ih =>
    obtain ⟨n, u⟩ := a
    by_cases hn : name = n
    · subst hn
      simp_all
    · simp_all [List.lookup_cons, beq_eq_false_iff_ne.2 hn]

private theorem sizeOf_lt_of_lookup {aliases : List (String × TypeExpr)} {name : String} {t : TypeExpr}
    (h : aliases.lookup name = some t) : sizeOf t < sizeOf aliases := by
  have smaller := List.sizeOf_lt_of_mem (mem_of_lookup h)
  rw [Prod.mk.sizeOf_spec] at smaller
  omega

private theorem length_filter_lt {α : Type} {p q : α → Bool} {l : List α} {x : α} (hx : x ∈ l)
    (hp : p x = true) (hq : q x = false) (h : ∀ y, q y = true → p y = true) :
    (l.filter q).length < (l.filter p).length := by
  induction l with
  | nil => cases hx
  | cons y l ih =>
    have le : (l.filter q).length ≤ (l.filter p).length := by
      have sub : (l.filter q) = (l.filter p).filter q := by
        rw [List.filter_filter]
        exact List.filter_congr fun z _ => by cases hz : q z <;> simp [h z, hz]
      exact sub ▸ List.length_filter_le q (l.filter p)
    rcases List.mem_cons.1 hx with rfl | hx
    · simp [hp, hq]
      omega
    · have lt := ih hx
      have step := h y
      rw [List.filter_cons, List.filter_cons]
      split <;> split
      · simpa using lt
      · simp_all
      · exact Nat.lt_succ_of_lt lt
      · exact lt

/-- Entering an alias leaves fewer of them. -/
theorem unvisited_lt {scope : Scope} {visited : List String} {name : String} {t : TypeExpr}
    (new : name ∉ visited) (h : scope.target? name = some t) :
    scope.unvisited (visited ++ [name]) < scope.unvisited visited :=
  length_filter_lt (mem_of_lookup h) (by simpa using new) (by simp) (by simp_all)

/-- What is left of a type to be resolved, at most. -/
noncomputable def workload (scope : Scope) (visited : List String) (t : TypeExpr) : Nat :=
  scope.unvisited visited * sizeOf scope.aliases + sizeOf t

theorem workload_pointee (scope : Scope) (visited : List String) (isMutable : Bool) (pointee : TypeExpr) :
    scope.workload visited pointee < scope.workload visited (.pointer isMutable pointee) :=
  Nat.add_lt_add_left (by simp) _

theorem workload_target {scope : Scope} {visited : List String} {name : String} {t : TypeExpr} (args : List TypeExpr)
    (new : name ∉ visited) (h : scope.target? name = some t) :
    scope.workload (visited ++ [name]) t < scope.workload visited (.named name args) := by
  have fewer := Nat.mul_le_mul_right (sizeOf scope.aliases) (unvisited_lt new h)
  have smaller := sizeOf_lt_of_lookup h
  rw [Nat.succ_mul] at fewer
  simp only [workload]
  omega

/-- The C type of a type, while the aliases in `visited` are being followed. -/
def resolve (scope : Scope) (visited : List String) : TypeExpr → Except Cycle CType
  | .primitive p => .ok (.ofName p.cName)
  | .pointer isMutable pointee =>
    (resolve scope visited pointee).map fun c => .pointer (if isMutable then c else c.withConst) []
  | .named name _ =>
    if name ∈ visited then .error ⟨visited ++ [name]⟩
    else
      match _h : scope.target? name with
      | some t =>
        (resolve scope (visited ++ [name]) t).map fun c => if name ∈ scope.exported then .ofName name else c
      | none => .ok (.base ⟨name, [], !scope.exported.contains name⟩)
termination_by t => scope.workload visited t
decreasing_by
  · exact workload_pointee ..
  · exact workload_target _ ‹_› _h

/-- What happens while a type is resolved. -/
def resolveEvents (scope : Scope) (visited : List String) : TypeExpr → List Event
  | .primitive _ => []
  | .pointer _ pointee => resolveEvents scope visited pointee
  | .named name args =>
    (if args.isEmpty then [] else [.argumentsIgnored name args]) ++
      if name ∈ visited then []
      else
        match _h : scope.target? name with
        | some t => resolveEvents scope (visited ++ [name]) t
        | none => if name ∈ scope.exported then [] else [.unknownLayout name]
termination_by t => scope.workload visited t
decreasing_by
  · exact workload_pointee ..
  · exact workload_target _ ‹_› _h

/-- The C types of fields or parameters, up to the first cycle. -/
def resolveMembers (scope : Scope) : List Member → Except Cycle (List Slot)
  | [] => .ok []
  | m :: ms => do
    let t ← scope.resolve [] m.type
    return ⟨m.name, t⟩ :: (← resolveMembers scope ms)

/-- The declaration of a header for a source declaration. The target of an alias is resolved as if its own name
were being followed. -/
def resolveDeclaration (scope : Scope) : Declaration → Except Cycle Item
  | .alias a => (scope.resolve [a.name] a.target).map fun t => .typedef ⟨a.name, t, a.location⟩
  | .enumeration e =>
    .ok (.enumeration ⟨e.name, e.variants.map fun v => ⟨v.name, v.value⟩, e.location⟩)
  | .struct s => (scope.resolveMembers s.fields).map fun fields => .struct ⟨s.name, fields, s.location⟩
  | .function f => do
    let returnType ← scope.resolve [] f.returnType
    let parameters ← scope.resolveMembers f.parameters
    return .prototype ⟨f.symbol, returnType, parameters, f.location⟩

/-- What happens while types are resolved one after another: nothing after the first cycle. -/
def eventsUntilCycle (scope : Scope) (visited : List String) : List TypeExpr → List Event
  | [] => []
  | t :: ts =>
    scope.resolveEvents visited t ++
      match scope.resolve visited t with
      | .ok _ => eventsUntilCycle scope visited ts
      | .error _ => []

def declarationEvents (scope : Scope) : Declaration → List Event
  | .alias a => scope.eventsUntilCycle [a.name] [a.target]
  | .enumeration _ => []
  | .struct s => scope.eventsUntilCycle [] (s.fields.map Member.type)
  | .function f => scope.eventsUntilCycle [] (f.returnType :: f.parameters.map Member.type)

end Scope

end CInterface
