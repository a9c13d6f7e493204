import CInterface.Proofs.Resolution.Scopes

/-!
# Type arguments

Type arguments are not supported: a name with arguments resolves like the name alone, so that they can be taken out of
a declaration without a difference to what it resolves to. They are warned of when a type is resolved that has them
under its pointers, before it is known whether the type runs into a cycle. Following aliases adds no warning as long as
none of them stands for a type application.
-/

namespace CInterface

open Source

namespace Source

/-- The type without the arguments of the name under its pointers. -/
def TypeExpr.withoutArguments : TypeExpr → TypeExpr
  | .primitive p => .primitive p
  | .pointer isMutable pointee => .pointer isMutable pointee.withoutArguments
  | .named name _ => .named name []

theorem TypeExpr.isParameterized_withoutArguments (t : TypeExpr) : t.withoutArguments.isParameterized = false := by
  induction t using withoutArguments.induct with
  | case1 p => rfl
  | case2 isMutable pointee ih => exact ih
  | case3 name args => rfl

def Member.withoutArguments (m : Member) : Member := { m with type := m.type.withoutArguments }

namespace Declaration

/-- The declaration without type arguments in its fields, its parameters and its return type. What an alias stands for
is left as it is. -/
def withoutArguments : Declaration → Declaration
  | .alias a => .alias a
  | .enumeration e => .enumeration e
  | .struct s => .struct { s with fields := s.fields.map Member.withoutArguments }
  | .function f => .function { f with
      parameters := f.parameters.map Member.withoutArguments
      returnType := f.returnType.withoutArguments }

variable (d : Declaration)

@[simp] theorem kind_withoutArguments : d.withoutArguments.kind = d.kind := by cases d <;> rfl

@[simp] theorem name_withoutArguments : d.withoutArguments.name = d.name := by cases d <;> rfl

@[simp] theorem location_withoutArguments : d.withoutArguments.location = d.location := by cases d <;> rfl

@[simp] theorem headerName_withoutArguments : d.withoutArguments.headerName = d.headerName := by cases d <;> rfl

@[simp] theorem isEligible_withoutArguments : d.withoutArguments.isEligible = d.isEligible := by cases d <;> rfl

@[simp] theorem alias?_withoutArguments : d.withoutArguments.alias? = d.alias? := by cases d <;> rfl

@[simp] theorem unsupported?_withoutArguments : d.withoutArguments.unsupported? = d.unsupported? := by
  cases d <;> rfl

theorem types_withoutArguments (h : d.kind ≠ .typedef) :
    d.withoutArguments.types = d.types.map TypeExpr.withoutArguments := by
  rcases d with a | e | s | f
  · exact absurd rfl h
  · rfl
  · simp [withoutArguments, types, Member.withoutArguments]
  · simp [withoutArguments, types, Member.withoutArguments]

end Declaration

end Source

namespace Scope

variable (scope : Scope)

/-- A type resolves like the type without its arguments. -/
theorem resolve_withoutArguments (visited : List String) (t : TypeExpr) :
    scope.resolve visited t.withoutArguments = scope.resolve visited t := by
  induction t using TypeExpr.withoutArguments.induct with
  | case1 p => rfl
  | case2 isMutable t ih => rw [TypeExpr.withoutArguments, resolve_pointer, resolve_pointer, ih]
  | case3 name args => rw [TypeExpr.withoutArguments, resolve_args scope visited name args]

theorem resolveMembers_withoutArguments (ms : List Member) :
    scope.resolveMembers (ms.map Member.withoutArguments) = scope.resolveMembers ms := by
  induction ms with
  | nil => rfl
  | cons m ms ih =>
    have first : scope.resolve [] m.withoutArguments.type = scope.resolve [] m.type :=
      resolve_withoutArguments scope [] m.type
    rw [List.map_cons, resolveMembers, resolveMembers, first, ih]
    rfl

theorem resolveDeclaration_withoutArguments (d : Declaration) :
    scope.resolveDeclaration d.withoutArguments = scope.resolveDeclaration d := by
  rcases d with a | e | s | f
  · rfl
  · rfl
  · rw [Declaration.withoutArguments, resolveDeclaration, resolveDeclaration, resolveMembers_withoutArguments]
  · rw [Declaration.withoutArguments, resolveDeclaration, resolveDeclaration, resolve_withoutArguments,
      resolveMembers_withoutArguments]
    rfl

end Scope

/-- The warnings of the stage that resolves types. -/
def Event.isResolutionWarning (e : Event) : Bool := e.level == .warning && e.stage == .resolution

/-- The warning for a type that has arguments under its pointers. -/
def Source.TypeExpr.warning? : TypeExpr → Option Event
  | .primitive _ => none
  | .pointer _ pointee => pointee.warning?
  | .named name args => if args.isEmpty then none else some (.argumentsIgnored name args)

theorem Source.TypeExpr.isSome_warning? (t : TypeExpr) : t.warning?.isSome = t.isParameterized := by
  induction t using isParameterized.induct with
  | case1 p => rfl
  | case2 isMutable pointee ih => exact ih
  | case3 name args =>
    rw [warning?, isParameterized]
    cases args.isEmpty <;> rfl

theorem Source.TypeExpr.warning?_eq_none {t : TypeExpr} (plain : t.isParameterized = false) : t.warning? = none := by
  rw [← isSome_warning?, Option.isSome_eq_false_iff, Option.isNone_iff_eq_none] at plain
  exact plain

/-- The warning for a type says of a name with arguments under its pointers that the arguments are not supported. -/
def Source.TypeExpr.WarnedBy (t : TypeExpr) (e : Event) : Prop :=
  ∃ (marks : List Bool) (name : String) (args : List TypeExpr), args ≠ [] ∧
    t = marks.foldr .pointer (.named name args) ∧ e = .argumentsIgnored name args ∧
    e.message =
      "type arguments are not supported, " ++ (TypeExpr.named name args).text ++ " is resolved as " ++ name

theorem Source.TypeExpr.warnedBy_of_warning? {t : TypeExpr} {e : Event} (h : t.warning? = some e) : t.WarnedBy e := by
  induction t using isParameterized.induct with
  | case1 p => cases h
  | case2 isMutable pointee ih =>
    obtain ⟨marks, name, args, nonempty, rfl, warns⟩ := ih h
    exact ⟨isMutable :: marks, name, args, nonempty, rfl, warns⟩
  | case3 name args =>
    rw [warning?] at h
    split at h
    · cases h
    next nonempty =>
      cases h
      exact ⟨[], name, args, by simpa using nonempty, rfl, rfl, rfl⟩

namespace Scope

/-- Of types that are resolved one after another, those up to the first that runs into a cycle, with that one. -/
def reached (scope : Scope) (visited : List String) (ts : List TypeExpr) : List TypeExpr :=
  ts.take ((ts.takeWhile fun t => (scope.resolve visited t).isOk).length + 1)

/-- The types of a declaration that come to be resolved. -/
def reachedTypes (scope : Scope) (d : Declaration) : List TypeExpr := scope.reached d.entered d.types

variable {scope : Scope} {visited : List String} {t : TypeExpr} {d : Declaration}

theorem reached_cons_ok {c : CType} (ts : List TypeExpr) (h : scope.resolve visited t = .ok c) :
    scope.reached visited (t :: ts) = t :: scope.reached visited ts := by
  simp [reached, h, Except.isOk, Except.toBool]

theorem reached_cons_error {c : Cycle} (ts : List TypeExpr) (h : scope.resolve visited t = .error c) :
    scope.reached visited (t :: ts) = [t] := by
  simp [reached, h, Except.isOk, Except.toBool]

theorem mem_types_of_reached (h : t ∈ scope.reachedTypes d) : t ∈ d.types := List.mem_of_mem_take h

theorem declarationEvents_eq (scope : Scope) (d : Declaration) :
    scope.declarationEvents d = scope.eventsUntilCycle d.entered d.types := by
  cases d <;> rfl

section

variable (plain : ∀ name u, scope.target? name = some u → u.isParameterized = false)

include plain

/-- Resolving a type warns of its own arguments, and of no others on the way through the aliases. -/
theorem resolveEvents_warnings (visited : List String) (t : TypeExpr) :
    (scope.resolveEvents visited t).filter Event.isResolutionWarning = t.warning?.toList := by
  induction visited, t using resolveEvents.induct scope with
  | case1 visited p =>
    rw [resolveEvents]
    rfl
  | case2 visited isMutable t ih =>
    rw [resolveEvents, ih]
    rfl
  | case3 visited name args ih =>
    have own : (if args.isEmpty then [] else [Event.argumentsIgnored name args]).filter Event.isResolutionWarning =
        (TypeExpr.named name args).warning?.toList := by
      rw [TypeExpr.warning?]
      cases args.isEmpty <;> rfl
    rw [resolveEvents, List.filter_append, own, List.append_right_eq_self]
    split
    · rfl
    next hv =>
      split
      next u hu => rw [ih hv u hu, TypeExpr.warning?_eq_none (plain name u hu), Option.toList_none]
      next =>
        -- that a name is unknown is told, but not as a warning
        split <;> rfl

theorem eventsUntilCycle_warnings (visited : List String) (ts : List TypeExpr) :
    (scope.eventsUntilCycle visited ts).filter Event.isResolutionWarning =
      (scope.reached visited ts).filterMap TypeExpr.warning? := by
  induction ts with
  | nil => rfl
  | cons t ts ih =>
    rw [eventsUntilCycle, List.filter_append, resolveEvents_warnings plain]
    cases h : scope.resolve visited t with
    | ok c =>
      rw [reached_cons_ok ts h]
      cases hw : t.warning? with
      | none => rw [List.filterMap_cons_none hw, ← ih, Option.toList_none, List.nil_append]
      | some e => rw [List.filterMap_cons_some hw, ← ih, Option.toList_some, List.singleton_append]
    | error c =>
      rw [reached_cons_error ts h]
      cases hw : t.warning? with
      | none => rw [List.filterMap_cons_none hw]; rfl
      | some e => rw [List.filterMap_cons_some hw]; rfl

/-- The warnings while a declaration is resolved are those for its types up to the first cycle. -/
theorem declarationEvents_warnings (d : Declaration) :
    (scope.declarationEvents d).filter Event.isResolutionWarning =
      (scope.reachedTypes d).filterMap TypeExpr.warning? := by
  rw [declarationEvents_eq, eventsUntilCycle_warnings plain, reachedTypes]

end

end Scope

end CInterface
