import CInterface.Proofs.Resolution.Scopes

/-!
# Types in a smaller scope

A scope becomes smaller when exported names are taken out of it, and the aliases of these names with them. A chain of
aliases then ends earlier or goes on as before, so that whatever resolved still resolves. It resolves to the same type
unless that type is named after something that was taken out.
-/

namespace CInterface.Scope

open Source

/-- Of the names of a scope some exported ones are gone. What is left means what it meant before. -/
structure Smaller (other scope : Scope) : Prop where
  targets : ∀ name t, other.target? name = some t → scope.target? name = some t
  hidden : ∀ name, name ∉ scope.exported → other.target? name = scope.target? name
  exported : ∀ name, name ∈ other.exported → name ∈ scope.exported

variable {scope other : Scope} {visited : List String} {t : TypeExpr}

theorem Smaller.target?_eq_none (small : Smaller other scope) {name : String} (h : scope.target? name = none) :
    other.target? name = none := by
  cases there : other.target? name with
  | none => rfl
  | some u => cases h.symm.trans (small.targets name u there)

/-- No chain closes that did not close before. -/
theorem Smaller.yields (small : Smaller other scope) (h : Yields (scope.resolve visited t)) :
    Yields (other.resolve visited t) := by
  induction visited, t using resolve.induct scope with
  | case1 visited p => simp
  | case2 visited isMutable t ih =>
    rw [resolve_pointer, yields_map] at h ⊢
    exact ih h
  | case3 visited name args hv =>
    rw [resolve_visited args hv] at h
    exact absurd h (not_yields_error _)
  | case4 visited name args hv t ht ih =>
    rw [resolve_alias args hv ht, yields_map] at h
    cases there : other.target? name with
    | none =>
      rw [resolve_other args hv there]
      exact yields_ok _
    | some u =>
      cases ht.symm.trans (small.targets name u there)
      rw [resolve_alias args hv there, yields_map]
      exact ih h
  | case5 visited name args hv ht =>
    rw [resolve_other args hv (small.target?_eq_none ht)]
    exact yields_ok _

/-- A type resolves as before if the name that it comes to is still exported where it was. -/
theorem Smaller.resolve (small : Smaller other scope) {c : CType} (h : scope.resolve visited t = .ok c)
    (kept : c.baseType.name ∈ scope.exported → c.baseType.name ∈ other.exported) :
    other.resolve visited t = .ok c := by
  induction visited, t using resolve.induct scope generalizing c with
  | case1 visited p =>
    rw [resolve_primitive] at h ⊢
    exact h
  | case2 visited isMutable t ih =>
    rw [resolve_pointer, except_map_ok] at h ⊢
    obtain ⟨a, ha, rfl⟩ := h
    refine ⟨a, ih ha ?_, rfl⟩
    cases isMutable with
    | true => exact kept
    | false => rwa [← a.name_baseType_withConst]
  | case3 visited name args hv =>
    rw [resolve_visited args hv] at h
    cases h
  | case4 visited name args hv t ht ih =>
    by_cases he : name ∈ scope.exported
    · -- the chain behind an exported name matters only in that it ends
      have whole := exported_name args hv he h
      subst whole
      obtain ⟨c, hc⟩ := small.yields ⟨_, h⟩
      rw [hc, exported_name args hv (kept he) hc]
    · have gone : name ∉ other.exported := fun mem => he (small.exported name mem)
      rw [resolve_alias args hv ht, except_map_ok] at h
      obtain ⟨a, ha, rfl⟩ := h
      rw [if_neg he] at kept ⊢
      rw [resolve_alias args hv (small.hidden name he ▸ ht), ih ha kept]
      exact congrArg Except.ok (if_neg gone)
  | case5 visited name args hv ht =>
    rw [resolve_other args hv ht] at h
    cases h
    have same : name ∈ other.exported ↔ name ∈ scope.exported := ⟨small.exported name, kept⟩
    rw [resolve_other args hv (small.target?_eq_none ht)]
    simp only [List.contains_eq_mem, same]

/-- A declaration resolves as before if the names that its types come to are still exported where they were. -/
theorem Smaller.resolveDeclaration (small : Smaller other scope) {d : Declaration} {item : Item}
    (h : scope.resolveDeclaration d = .ok item)
    (kept : ∀ c ∈ item.references, c.baseType.name ∈ scope.exported → c.baseType.name ∈ other.exported) :
    other.resolveDeclaration d = .ok item := by
  rw [← h]
  refine resolveDeclaration_congr fun t ht => ?_
  obtain ⟨c, hc, resolves⟩ := forall₂_mem_left (resolveDeclaration_ok h).2.2 ht
  rw [resolves]
  exact small.resolve resolves (kept c hc)

end CInterface.Scope
