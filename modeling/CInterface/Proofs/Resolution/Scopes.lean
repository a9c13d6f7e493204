import CInterface.Proofs.Resolution.Chains

/-!
# One type in two scopes

Names are given a meaning by two scopes. Where both look up the same aliases and export the same names, types resolve
alike; only the names that can come up on the way have to be looked up alike. An alias with an exported name is followed
only to see whether its chain closes: scopes that differ in such aliases agree on whatever resolves in both.
-/

namespace CInterface.Scope

open Source

variable {scope other : Scope} {visited : List String} {d : Declaration}

/-- A type resolves alike in two scopes that look up alike the names of a set which chains of aliases do not leave, if
the type itself starts in that set. -/
theorem resolve_congr_on (reached : String → Prop)
    (closed : ∀ name t, reached name → scope.target? name = some t → ∀ next, t.baseName? = some next → reached next)
    (targets : ∀ name, reached name → scope.target? name = other.target? name)
    (exported : ∀ name, name ∈ scope.exported ↔ name ∈ other.exported) (visited : List String) (t : TypeExpr)
    (starts : ∀ name, t.baseName? = some name → reached name) : scope.resolve visited t = other.resolve visited t := by
  induction visited, t using resolve.induct scope with
  | case1 visited p => rw [resolve_primitive, resolve_primitive]
  | case2 visited isMutable t ih => rw [resolve_pointer, resolve_pointer, ih starts]
  | case3 visited name args hv => rw [resolve_visited args hv, resolve_visited args hv]
  | case4 visited name args hv t ht ih =>
    have here : reached name := starts name rfl
    rw [resolve_alias args hv ht, resolve_alias args hv (targets name here ▸ ht), ih (closed name t here ht)]
    simp only [exported]
  | case5 visited name args hv ht =>
    rw [resolve_other args hv ht, resolve_other args hv (targets name (starts name rfl) ▸ ht)]
    simp only [List.contains_eq_mem, exported]

theorem resolve_congr (targets : ∀ name, scope.target? name = other.target? name)
    (exported : ∀ name, name ∈ scope.exported ↔ name ∈ other.exported) (visited : List String) (t : TypeExpr) :
    scope.resolve visited t = other.resolve visited t :=
  resolve_congr_on (fun _ => True) (fun _ _ _ _ _ _ => trivial) (fun name _ => targets name) exported visited t
    fun _ _ => trivial

/-- An exported name that resolves stands for itself. -/
theorem exported_name {name : String} (args : List TypeExpr) (hv : name ∉ visited) (he : name ∈ scope.exported)
    {c : CType} (h : scope.resolve visited (.named name args) = .ok c) : c = .ofName name := by
  cases ht : scope.target? name with
  | none =>
    rw [resolve_other args hv ht] at h
    cases h
    simp [CType.ofName, he]
  | some t =>
    rw [resolve_alias args hv ht, except_map_ok] at h
    obtain ⟨a, -, rfl⟩ := h
    rw [if_pos he]

/-- Aliases with exported names have no say in what a type resolves to, only in whether it does. -/
theorem resolve_agree (targets : ∀ name, name ∉ scope.exported → scope.target? name = other.target? name)
    (exported : scope.exported = other.exported) {t : TypeExpr} {c c' : CType}
    (h : scope.resolve visited t = .ok c) (h' : other.resolve visited t = .ok c') : c = c' := by
  induction visited, t using resolve.induct scope generalizing c c' with
  | case1 visited p =>
    rw [resolve_primitive] at h h'
    cases h
    cases h'
    rfl
  | case2 visited isMutable t ih =>
    rw [resolve_pointer, except_map_ok] at h h'
    obtain ⟨a, ha, rfl⟩ := h
    obtain ⟨b, hb, rfl⟩ := h'
    rw [ih ha hb]
  | case3 visited name args hv =>
    rw [resolve_visited args hv] at h
    cases h
  | case4 visited name args hv t ht ih =>
    rw [resolve_alias args hv ht, except_map_ok] at h
    obtain ⟨a, ha, rfl⟩ := h
    by_cases he : name ∈ scope.exported
    · rw [if_pos he, exported_name args hv (exported ▸ he) h']
    · rw [resolve_alias args hv (targets name he ▸ ht), except_map_ok] at h'
      obtain ⟨b, hb, rfl⟩ := h'
      rw [ih ha hb, exported]
  | case5 visited name args hv ht =>
    rw [resolve_other args hv ht] at h
    cases h
    by_cases he : name ∈ scope.exported
    · rw [exported_name args hv (exported ▸ he) h']
      simp [CType.ofName, he]
    · rw [resolve_other args hv (targets name he ▸ ht), ← exported] at h'
      cases h'
      rfl

theorem resolveMembers_congr {ms : List Member}
    (h : ∀ t ∈ ms.map Member.type, scope.resolve [] t = other.resolve [] t) :
    scope.resolveMembers ms = other.resolveMembers ms := by
  induction ms with
  | nil => rfl
  | cons m ms ih =>
    obtain ⟨first, rest⟩ := List.forall_mem_cons.1 h
    rw [resolveMembers, resolveMembers, first, ih rest]

/-- A declaration resolves alike if its types do. -/
theorem resolveDeclaration_congr (h : ∀ t ∈ d.types, scope.resolve d.entered t = other.resolve d.entered t) :
    scope.resolveDeclaration d = other.resolveDeclaration d := by
  rcases d with a | e | s | f
  · have own : scope.resolve [a.name] a.target = other.resolve [a.name] a.target := h a.target List.mem_cons_self
    rw [resolveDeclaration, resolveDeclaration, own]
  · rfl
  · rw [resolveDeclaration, resolveDeclaration, resolveMembers_congr h]
  · obtain ⟨first, rest⟩ := List.forall_mem_cons.1 h
    rw [resolveDeclaration, resolveDeclaration, resolveMembers_congr rest]
    exact congrArg (· >>= _) first

theorem resolveDeclaration_agree
    (targets : ∀ name, name ∉ scope.exported → scope.target? name = other.target? name)
    (exported : scope.exported = other.exported) {item item' : Item}
    (h : scope.resolveDeclaration d = .ok item) (h' : other.resolveDeclaration d = .ok item') : item = item' := by
  have same : scope.resolveDeclaration d = other.resolveDeclaration d := by
    refine resolveDeclaration_congr fun t ht => ?_
    obtain ⟨c, -, hc⟩ := forall₂_mem_left (resolveDeclaration_ok h).2.2 ht
    obtain ⟨c', -, hc'⟩ := forall₂_mem_left (resolveDeclaration_ok h').2.2 ht
    rw [hc, hc', resolve_agree targets exported hc hc']
  rw [h, h'] at same
  exact Except.ok.inj same

end CInterface.Scope
