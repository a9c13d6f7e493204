import CInterface.Proofs.Resolution.BaseTypes

/-!
# Where a chain of aliases goes

Whether a type resolves is decided by the name under its pointers. The chain of an error is what was being followed,
then that name, and goes on with the name under the pointers of its alias; it does not look up what is being followed.
-/

namespace CInterface

open Source

/-- The name under the pointers of a type. -/
def Source.TypeExpr.baseName? : TypeExpr → Option String
  | .primitive _ => none
  | .pointer _ pointee => pointee.baseName?
  | .named name _ => some name

namespace Scope

variable {scope other : Scope} {visited : List String} {t : TypeExpr} {name : String} {c : Cycle}

theorem resolve_args (scope : Scope) (visited : List String) (name : String) (args : List TypeExpr) :
    scope.resolve visited (.named name args) = scope.resolve visited (.named name []) := by
  by_cases hv : name ∈ visited
  · rw [resolve_visited args hv, resolve_visited [] hv]
  · cases ht : scope.target? name with
    | none => rw [resolve_other args hv ht, resolve_other [] hv ht]
    | some t => rw [resolve_alias args hv ht, resolve_alias [] hv ht]

theorem resolve_error_iff : scope.resolve visited t = .error c ↔
    ∃ name, t.baseName? = some name ∧ scope.resolve visited (.named name []) = .error c := by
  induction t using TypeExpr.baseName?.induct with
  | case1 p => simp [TypeExpr.baseName?]
  | case2 isMutable t ih => rw [resolve_pointer, except_map_error, ih, TypeExpr.baseName?]
  | case3 name args => simp [TypeExpr.baseName?, resolve_args scope visited name args]

theorem error_of_baseName? {u : TypeExpr} (h : scope.resolve visited t = .error c)
    (same : u.baseName? = t.baseName?) : scope.resolve visited u = .error c := by
  rw [resolve_error_iff] at h ⊢
  rwa [same]

theorem chain_of_error (h : scope.resolve visited t = .error c) :
    ∃ name rest, t.baseName? = some name ∧ c.chain = visited ++ name :: rest := by
  induction visited, t using resolve.induct scope with
  | case1 visited p =>
    rw [resolve_primitive] at h
    cases h
  | case2 visited isMutable t ih =>
    rw [resolve_pointer, except_map_error] at h
    exact ih h
  | case3 visited name args hv =>
    rw [resolve_visited args hv] at h
    cases h
    exact ⟨name, [], rfl, rfl⟩
  | case4 visited name args hv t ht ih =>
    rw [resolve_alias args hv ht, except_map_error] at h
    obtain ⟨next, rest, -, chain⟩ := ih h
    exact ⟨name, next :: rest, rfl, by rw [chain, List.append_assoc, List.singleton_append]⟩
  | case5 visited name args hv ht =>
    rw [resolve_other args hv ht] at h
    cases h

/-- A name that is not being followed fails only as an alias. -/
theorem target_of_error (hv : name ∉ visited) {args : List TypeExpr}
    (h : scope.resolve visited (.named name args) = .error c) :
    ∃ t, scope.target? name = some t ∧ scope.resolve (visited ++ [name]) t = .error c := by
  cases ht : scope.target? name with
  | none =>
    rw [resolve_other args hv ht] at h
    cases h
  | some t =>
    rw [resolve_alias args hv ht, except_map_error] at h
    exact ⟨t, rfl, h⟩

theorem error_of_target (hv : name ∉ visited) (args : List TypeExpr) (ht : scope.target? name = some t)
    (h : scope.resolve (visited ++ [name]) t = .error c) : scope.resolve visited (.named name args) = .error c := by
  rw [resolve_alias args hv ht, except_map_error]
  exact h

/-- What is being followed is not looked up again. -/
theorem error_of_agree (targets : ∀ name, name ∉ visited → scope.target? name = other.target? name)
    (h : scope.resolve visited t = .error c) : other.resolve visited t = .error c := by
  induction visited, t using resolve.induct scope with
  | case1 visited p =>
    rw [resolve_primitive] at h
    cases h
  | case2 visited isMutable t ih =>
    rw [resolve_pointer, except_map_error] at h ⊢
    exact ih targets h
  | case3 visited name args hv =>
    rw [resolve_visited args hv] at h ⊢
    exact h
  | case4 visited name args hv t ht ih =>
    rw [resolve_alias args hv ht, except_map_error] at h
    refine error_of_target hv args (targets name hv ▸ ht) (ih (fun m hm => targets m fun mem => ?_) h)
    exact hm (List.mem_append_left _ mem)
  | case5 visited name args hv ht =>
    rw [resolve_other args hv ht] at h
    cases h

/-- A type that resolves resolves alike when fewer aliases are being followed. -/
theorem resolve_of_subset {c : CType} (h : scope.resolve visited t = .ok c) {fewer : List String}
    (sub : fewer ⊆ visited) : scope.resolve fewer t = .ok c := by
  induction visited, t using resolve.induct scope generalizing c fewer with
  | case1 visited p => simpa using h
  | case2 visited isMutable t ih =>
    rw [resolve_pointer, except_map_ok] at h ⊢
    obtain ⟨a, ha, rfl⟩ := h
    exact ⟨a, ih ha sub, rfl⟩
  | case3 visited name args hv =>
    rw [resolve_visited args hv] at h
    cases h
  | case4 visited name args hv t ht ih =>
    rw [resolve_alias args hv ht, except_map_ok] at h
    obtain ⟨a, ha, rfl⟩ := h
    rw [resolve_alias args (fun hf => hv (sub hf)) ht, except_map_ok]
    exact ⟨a, ih ha (List.append_subset.2 ⟨fun x hx => List.mem_append_left _ (sub hx),
      List.subset_append_right _ _⟩), rfl⟩
  | case5 visited name args hv ht =>
    rw [resolve_other args hv ht] at h
    rw [resolve_other args (fun hf => hv (sub hf)) ht, h]

theorem exists_member_error {ms : List Member} (h : scope.resolveMembers ms = .error c) :
    ∃ t ∈ ms.map Member.type, scope.resolve [] t = .error c := by
  induction ms with
  | nil => cases h
  | cons m ms ih =>
    rw [resolveMembers, except_bind_error] at h
    obtain first | ⟨a, -, h⟩ := h
    · exact ⟨m.type, List.mem_cons_self, first⟩
    · rw [except_bind_error] at h
      obtain rest | ⟨slots, -, h⟩ := h
      · obtain ⟨t, ht, fails⟩ := ih rest
        exact ⟨t, List.mem_cons_of_mem _ ht, fails⟩
      · cases h

/-- A declaration runs into the cycle of one of its types. -/
theorem exists_type_error {d : Declaration} (h : scope.resolveDeclaration d = .error c) :
    ∃ t ∈ d.types, scope.resolve d.entered t = .error c := by
  rcases d with a | e | s | f
  · rw [resolveDeclaration, except_map_error] at h
    exact ⟨a.target, List.mem_cons_self, h⟩
  · cases h
  · rw [resolveDeclaration, except_map_error] at h
    exact exists_member_error h
  · rw [resolveDeclaration, except_bind_error] at h
    obtain returns | ⟨a, -, h⟩ := h
    · exact ⟨f.returnType, List.mem_cons_self, returns⟩
    · rw [except_bind_error] at h
      obtain parameters | ⟨slots, -, h⟩ := h
      · obtain ⟨t, ht, fails⟩ := exists_member_error parameters
        exact ⟨t, List.mem_cons_of_mem _ ht, fails⟩
      · cases h

theorem resolveDeclaration_fails {d : Declaration} (ht : t ∈ d.types) (h : scope.resolve d.entered t = .error c) :
    ∃ c', scope.resolveDeclaration d = .error c' := by
  cases hd : scope.resolveDeclaration d with
  | error c' => exact ⟨c', rfl⟩
  | ok item =>
    obtain ⟨a, -, ha⟩ := forall₂_mem_left (resolveDeclaration_ok hd).2.2 ht
    cases h.symm.trans ha

end Scope

end CInterface
