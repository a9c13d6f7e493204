import CInterface.Proofs.Header.TypeText
import CInterface.Proofs.Resolution.BaseTypes

/-!
# Pointer levels and constants are kept

Walking through a type goes through its pointers and on through aliases that are not exported, up to a primitive, an
exported name or a name of which nothing is known. What the type resolves to has one level for each pointer on the way,
is constant below those that are not mutable and nowhere else, and ends where the walk ends; and its text tells all of
this.
-/

namespace CInterface

open Source Text

namespace CType

theorem length_qualifierLists (t : CType) : t.qualifierLists.length = t.depth + 1 := by
  induction t with
  | base b => rfl
  | pointer pointee qualifiers ih => rw [qualifierLists, List.length_cons, ih, depth]

theorem qualifierLists_withConst {t : CType} {qualifiers : List String} {rest : List (List String)}
    (h : t.qualifierLists = qualifiers :: rest) : t.withConst.qualifierLists = ("const" :: qualifiers) :: rest := by
  cases t <;> cases h <;> rfl

theorem qualifierLists_bare (t : CType) : t.bare.qualifierLists = t.qualifierLists := by
  induction t with
  | base b => rfl
  | pointer pointee qualifiers ih => rw [bare, qualifierLists, qualifierLists, ih]

theorem name_baseType_bare (t : CType) : t.bare.baseType.name = t.baseType.name := by
  induction t with
  | base b => rfl
  | pointer pointee qualifiers ih => exact ih

end CType

/-- The qualifiers of what a pointer points to. -/
def pointeeQualifiers (isMutable : Bool) : List String := if isMutable then [] else ["const"]

theorem pointeeQualifiers_inj {m n : Bool} (h : pointeeQualifiers m = pointeeQualifiers n) : m = n := by
  cases m <;> cases n <;> simp_all [pointeeQualifiers]

theorem single_pointeeQualifiers (isMutable : Bool) : Single (pointeeQualifiers isMutable) := by
  cases isMutable with
  | true => exact .inl rfl
  | false => exact .inr ⟨"const", rfl, (isWord_of_isIdentifier (by decide)).isSolid⟩

namespace Scope

/-- Where the walk through a type ends. -/
inductive Goal where
  | primitive (p : Primitive)
  | exported (name : String)
  | unknown (name : String)
  deriving DecidableEq, Repr

/-- The name in C of the end of a walk. -/
def Goal.name : Goal → String
  | .primitive p => p.cName
  | .exported name => name
  | .unknown name => name

def Goal.isUnknown : Goal → Bool
  | .unknown _ => true
  | _ => false

/-- Walking through the pointers of a type and through aliases that are not exported meets these marks of mutability,
the outermost first, and ends there. -/
inductive Walks (scope : Scope) : TypeExpr → List Bool → Goal → Prop
  | primitive (p : Primitive) : Walks scope (.primitive p) [] (.primitive p)
  | exported {name : String} (args : List TypeExpr) (he : name ∈ scope.exported) :
      Walks scope (.named name args) [] (.exported name)
  | unknown {name : String} (args : List TypeExpr) (he : name ∉ scope.exported) (ht : scope.target? name = none) :
      Walks scope (.named name args) [] (.unknown name)
  | pointer {t : TypeExpr} {marks : List Bool} {goal : Goal} (isMutable : Bool) (h : Walks scope t marks goal) :
      Walks scope (.pointer isMutable t) (isMutable :: marks) goal
  | inlined {name : String} {t : TypeExpr} {marks : List Bool} {goal : Goal} (args : List TypeExpr)
      (he : name ∉ scope.exported) (ht : scope.target? name = some t) (h : Walks scope t marks goal) :
      Walks scope (.named name args) marks goal

variable {scope : Scope} {visited : List String} {t : TypeExpr} {c : CType} {marks : List Bool} {goal : Goal}

theorem Walks.unique (h : scope.Walks t marks goal) {marks' : List Bool} {goal' : Goal}
    (h' : scope.Walks t marks' goal') : marks' = marks ∧ goal' = goal := by
  induction h generalizing marks' with
  | primitive p =>
    cases h'
    exact ⟨rfl, rfl⟩
  | exported args he =>
    cases h' with
    | exported => exact ⟨rfl, rfl⟩
    | unknown _ out => exact absurd he out
    | inlined _ out => exact absurd he out
  | unknown args he ht =>
    cases h' with
    | exported _ inside => exact absurd inside he
    | unknown => exact ⟨rfl, rfl⟩
    | inlined _ _ there => cases ht.symm.trans there
  | pointer isMutable _ ih =>
    cases h' with
    | pointer _ rest =>
      obtain ⟨rfl, rfl⟩ := ih rest
      exact ⟨rfl, rfl⟩
  | inlined args he ht _ ih =>
    cases h' with
    | exported _ inside => exact absurd inside he
    | unknown _ _ none => cases ht.symm.trans none
    | inlined _ _ there rest =>
      cases ht.symm.trans there
      exact ih rest

/-- A type has one level for each pointer on the way, constant as that pointer demands, and ends where the walk does. -/
structure Keeps (c : CType) (marks : List Bool) (goal : Goal) : Prop where
  levels : c.qualifierLists = [] :: marks.map pointeeQualifiers
  name : c.baseType.name = goal.name
  layout : c.baseType.isIncomplete = goal.isUnknown

theorem Keeps.pointer (keeps : Keeps c marks goal) (isMutable : Bool) :
    Keeps (.pointer (if isMutable then c else c.withConst) []) (isMutable :: marks) goal where
  levels := by
    cases isMutable with
    | true => exact congrArg ([] :: ·) keeps.levels
    | false => exact congrArg ([] :: ·) (CType.qualifierLists_withConst keeps.levels)
  name := (name_pointer isMutable c).trans keeps.name
  layout := (isIncomplete_pointer isMutable c).trans keeps.layout

theorem Keeps.depth (keeps : Keeps c marks goal) : c.depth = marks.length := by
  have levels := c.length_qualifierLists
  rw [keeps.levels, List.length_cons, List.length_map] at levels
  exact (Nat.succ.inj levels).symm

theorem Keeps.legible (keeps : Keeps c marks goal) (solid : IsSolid goal.name) : c.Legible where
  name := keeps.name ▸ solid
  qualifiers := by
    rw [keeps.levels, List.forall_mem_cons, List.forall_mem_map]
    exact ⟨.inl rfl, fun isMutable _ => single_pointeeQualifiers isMutable⟩

/-- The text of a type tells the way and the name at its end. -/
theorem Keeps.eq_of_text (keeps : Keeps c marks goal) (solid : IsSolid goal.name) {c' : CType} {marks' : List Bool}
    {goal' : Goal} (keeps' : Keeps c' marks' goal') (solid' : IsSolid goal'.name) (same : c'.text = c.text) :
    marks' = marks ∧ goal'.name = goal.name := by
  have bare := CType.bare_eq_of_text (keeps'.legible solid') (keeps.legible solid) same
  constructor
  · have levels := congrArg CType.qualifierLists bare
    rw [CType.qualifierLists_bare, CType.qualifierLists_bare, keeps'.levels, keeps.levels] at levels
    exact List.map_injective_iff.2 (fun _ _ => pointeeQualifiers_inj) (List.cons.inj levels).2
  · rw [← keeps'.name, ← keeps.name, ← c'.name_baseType_bare, ← c.name_baseType_bare, bare]

theorem resolve_walks (h : scope.resolve visited t = .ok c) :
    ∃ marks goal, scope.Walks t marks goal ∧ Keeps c marks goal := by
  induction visited, t using resolve.induct scope generalizing c with
  | case1 visited p =>
    rw [resolve_primitive] at h
    cases h
    exact ⟨[], .primitive p, .primitive p, rfl, rfl, rfl⟩
  | case2 visited isMutable t ih =>
    rw [resolve_pointer, except_map_ok] at h
    obtain ⟨a, ha, rfl⟩ := h
    obtain ⟨marks, goal, walks, keeps⟩ := ih ha
    exact ⟨isMutable :: marks, goal, walks.pointer isMutable, keeps.pointer isMutable⟩
  | case3 visited name args hv =>
    rw [resolve_visited args hv] at h
    cases h
  | case4 visited name args hv t ht ih =>
    rw [resolve_alias args hv ht, except_map_ok] at h
    obtain ⟨a, ha, rfl⟩ := h
    by_cases he : name ∈ scope.exported
    · rw [if_pos he]
      exact ⟨[], .exported name, .exported args he, rfl, rfl, rfl⟩
    · obtain ⟨marks, goal, walks, keeps⟩ := ih ha
      rw [if_neg he]
      exact ⟨marks, goal, walks.inlined args he ht, keeps⟩
  | case5 visited name args hv ht =>
    rw [resolve_other args hv ht] at h
    cases h
    by_cases he : name ∈ scope.exported
    · exact ⟨[], .exported name, .exported args he, rfl, rfl, by simp [CType.baseType, he, Goal.isUnknown]⟩
    · exact ⟨[], .unknown name, .unknown args he ht, rfl, rfl, by simp [CType.baseType, he, Goal.isUnknown]⟩

/-- What a type resolves to has one level for each pointer that is met on the walk through the type, a constant below
exactly those that are not mutable, and the name at which the walk ends. If that name is solid, the text of the
resolved type determines the marks and the name. -/
theorem pointer_levels_kept (h : scope.resolve visited t = .ok c) :
    ∃ marks goal, (∀ marks' goal', scope.Walks t marks' goal' ↔ marks' = marks ∧ goal' = goal) ∧
      c.depth = marks.length ∧
      c.qualifierLists = [] :: marks.map (fun isMutable => if isMutable then [] else ["const"]) ∧
      c.baseType.name = goal.name ∧ c.baseType.isIncomplete = goal.isUnknown ∧
      ∀ (other : Scope) visited' t' c' marks' goal', other.resolve visited' t' = .ok c' →
        other.Walks t' marks' goal' → IsSolid goal.name → IsSolid goal'.name → c'.text = c.text →
          marks' = marks ∧ goal'.name = goal.name := by
  obtain ⟨marks, goal, walks, keeps⟩ := resolve_walks h
  refine ⟨marks, goal, fun marks' goal' => ⟨walks.unique, ?_⟩, keeps.depth, keeps.levels, keeps.name, keeps.layout, ?_⟩
  · rintro ⟨rfl, rfl⟩
    exact walks
  · intro other visited' t' c' marks' goal' resolves walks' solid solid' same
    obtain ⟨marks'', goal'', own, keeps'⟩ := resolve_walks resolves
    obtain ⟨rfl, rfl⟩ := own.unique walks'
    exact keeps.eq_of_text solid keeps' solid' same

/-- An alias of a pointer to constant data and an alias of that one, neither of them exported. -/
def rowScope : Scope :=
  ⟨[("Row", .pointer false (.named "Cell" [])), ("Line", .named "Row" [])], ["Cell"]⟩

def rowType : TypeExpr := .pointer false (.pointer true (.named "Line" []))

def rowCType : CType := .pointer (.pointer (.pointer (.base ⟨"Cell", ["const"], false⟩) []) ["const"]) []

theorem pointer_levels_row :
    rowScope.resolve [] rowType = .ok rowCType ∧ rowScope.Walks rowType [false, true, false] (.exported "Cell") ∧
      rowCType.depth = [false, true, false].length ∧ rowCType.baseType.name = (Goal.exported "Cell").name := by
  have resolves : rowScope.resolve [] rowType = .ok rowCType := by decide +kernel
  have line : rowScope.Walks (.named "Line" []) [false] (.exported "Cell") :=
    .inlined [] (by decide) rfl (.inlined [] (by decide) rfl (.pointer false (.exported [] (by decide))))
  have walk : rowScope.Walks rowType [false, true, false] (.exported "Cell") := (line.pointer true).pointer false
  obtain ⟨marks, goal, walks, depth, -, name, -⟩ := pointer_levels_kept resolves
  obtain ⟨rfl, rfl⟩ := (walks _ _).1 walk
  exact ⟨resolves, walk, depth, name⟩

end Scope

end CInterface
