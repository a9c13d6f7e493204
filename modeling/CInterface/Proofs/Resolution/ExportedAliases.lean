import CInterface.Proofs.Resolution.Chains

/-!
# Exported aliases keep their meaning

A type can be resolved with some aliases exported or with none. The cycles found are the same, and replacing the
exported aliases in the first result by what they resolve to, one after another, ends with the second one.
-/

namespace CInterface

open Source

namespace CType

/-- A type with more qualifiers at its outermost level. -/
def qualified (qualifiers : List String) : CType → CType
  | .base b => .base { b with qualifiers := qualifiers ++ b.qualifiers }
  | .pointer pointee own => .pointer pointee (qualifiers ++ own)

/-- A type with another one in the place of its base. The qualifiers of the base go to the outermost level of what
replaces it. -/
def withBase : CType → CType → CType
  | .base b, replacement => replacement.qualified b.qualifiers
  | .pointer pointee qualifiers, replacement => .pointer (pointee.withBase replacement) qualifiers

theorem qualified_nil (c : CType) : c.qualified [] = c := by
  cases c <;> rfl

theorem qualified_const (qualifiers : List String) (c : CType) :
    c.qualified ("const" :: qualifiers) = (c.qualified qualifiers).withConst := by
  cases c <;> rfl

@[simp] theorem withBase_ofName (name : String) (replacement : CType) :
    (ofName name).withBase replacement = replacement := replacement.qualified_nil

theorem withBase_withConst (c replacement : CType) :
    c.withConst.withBase replacement = (c.withBase replacement).withConst := by
  cases c with
  | base b => exact replacement.qualified_const b.qualifiers
  | pointer pointee qualifiers => rfl

end CType

namespace Scope

variable {scope : Scope} {visited : List String} {name : String} {t : TypeExpr} {c d : CType}

/-- The scope in which no alias is exported. -/
def inlined (scope : Scope) : Scope :=
  { scope with exported := scope.exported.filter fun name => (scope.target? name).isNone }

@[simp] theorem target?_inlined (scope : Scope) (name : String) :
    scope.inlined.target? name = scope.target? name := rfl

theorem mem_exported_inlined : name ∈ scope.inlined.exported ↔ name ∈ scope.exported ∧ scope.target? name = none := by
  simp [inlined]

/-- Replacing exported aliases by what they resolve to, one after another, turns one type into another one whose
base is no exported alias. -/
inductive Expands (scope : Scope) : CType → CType → Prop
  | done {c : CType} (h : c.baseType.name ∈ scope.exported → scope.target? c.baseType.name = none) :
      Expands scope c c
  | step {c own d : CType} {t : TypeExpr} (he : c.baseType.name ∈ scope.exported)
      (ht : scope.target? c.baseType.name = some t) (ho : scope.resolve [c.baseType.name] t = .ok own)
      (rest : Expands scope (c.withBase own) d) : Expands scope c d

theorem Expands.unique {e : CType} (h : scope.Expands c d) (h' : scope.Expands c e) : e = d := by
  induction h with
  | done h =>
    cases h' with
    | done => rfl
    | step he ht => exact absurd (h he) (by simp [ht])
  | step he ht ho _ ih =>
    cases h' with
    | done h => exact absurd (h he) (by simp [ht])
    | step _ ht' ho' rest' =>
      cases ht.symm.trans ht'
      cases ho.symm.trans ho'
      exact ih rest'

theorem Expands.pointer (h : scope.Expands c d) (qualifiers : List String) :
    scope.Expands (.pointer c qualifiers) (.pointer d qualifiers) := by
  induction h with
  | done h => exact .done h
  | step he ht ho _ ih => exact .step he ht ho ih

theorem Expands.withConst (h : scope.Expands c d) : scope.Expands c.withConst d.withConst := by
  induction h with
  | @done c h => exact .done (c.name_baseType_withConst ▸ h)
  | @step c own d t he ht ho _ ih =>
    rw [← c.withBase_withConst own] at ih
    have same := c.name_baseType_withConst
    exact .step (same.symm ▸ he) (same.symm ▸ ht) (same.symm ▸ ho) ih

/-- Which names are exported has no influence on the cycles. -/
theorem resolve_inlined_error {cycle : Cycle} :
    scope.inlined.resolve visited t = .error cycle ↔ scope.resolve visited t = .error cycle :=
  ⟨error_of_agree fun _ _ => rfl, error_of_agree fun _ _ => rfl⟩

/-- What a type resolves to expands to what it resolves to without exported aliases. -/
theorem resolve_expands
    (distinct : ∀ p : Primitive, p.cName ∈ scope.exported → scope.target? p.cName = none)
    (h : scope.resolve visited t = .ok c) :
    ∃ d, scope.inlined.resolve visited t = .ok d ∧ scope.Expands c d := by
  induction visited, t using resolve.induct scope generalizing c with
  | case1 visited p =>
    rw [resolve_primitive] at h
    cases h
    exact ⟨_, resolve_primitive _ _ p, .done (distinct p)⟩
  | case2 visited isMutable t ih =>
    rw [resolve_pointer, except_map_ok] at h
    obtain ⟨a, ha, rfl⟩ := h
    obtain ⟨b, hb, expands⟩ := ih ha
    rw [resolve_pointer, hb]
    refine ⟨_, rfl, Expands.pointer ?_ []⟩
    cases isMutable with
    | true => exact expands
    | false => exact expands.withConst
  | case3 visited name args hv =>
    rw [resolve_visited args hv] at h
    cases h
  | case4 visited name args hv t ht ih =>
    rw [resolve_alias args hv ht, except_map_ok] at h
    obtain ⟨a, ha, rfl⟩ := h
    obtain ⟨b, hb, expands⟩ := ih ha
    have inner : name ∉ scope.inlined.exported := by simp [mem_exported_inlined, ht]
    rw [resolve_alias args hv (scope.target?_inlined name ▸ ht), hb]
    refine ⟨b, by simp [Except.map, inner], ?_⟩
    split
    · -- the name alone is followed from the start, where nothing else is being followed
      next he =>
        have own := resolve_of_subset ha (List.subset_append_right visited [name])
        exact .step he ht own (by simpa using expands)
    · exact expands
  | case5 visited name args hv ht =>
    rw [resolve_other args hv ht] at h
    cases h
    rw [resolve_other args hv (scope.target?_inlined name ▸ ht)]
    refine ⟨_, rfl, ?_⟩
    have same : scope.inlined.exported.contains name = scope.exported.contains name := by
      simp [mem_exported_inlined, ht]
    rw [same]
    exact .done fun _ => ht

/-- Exporting aliases never changes the type that is meant: the cycles are the same, and replacing exported
aliases ends, and ends with the type that mentions none. -/
theorem exported_aliases_keep_type (scope : Scope)
    (distinct : ∀ p : Primitive, p.cName ∈ scope.exported → scope.target? p.cName = none)
    (visited : List String) (t : TypeExpr) :
    (∀ cycle, scope.resolve visited t = .error cycle ↔ scope.inlined.resolve visited t = .error cycle) ∧
      ∀ c d, scope.resolve visited t = .ok c → scope.inlined.resolve visited t = .ok d →
        ∀ e, scope.Expands c e ↔ e = d := by
  refine ⟨fun cycle => resolve_inlined_error.symm, ?_⟩
  intro c d hc hd e
  obtain ⟨d', hd', expands⟩ := resolve_expands distinct hc
  cases hd.symm.trans hd'
  constructor
  · exact expands.unique
  · rintro rfl
    exact expands

/-- An exported alias of a pointer, whose target goes through an alias that is not exported. -/
def bufferScope : Scope :=
  ⟨[("Buffer", .pointer true (.named "Octet" [])), ("Octet", .primitive .u8)], ["Buffer", "Engine"]⟩

theorem const_alias_keeps_type :
    (∀ p : Primitive, p.cName ∈ bufferScope.exported → bufferScope.target? p.cName = none) ∧
      ∀ e, bufferScope.Expands (.pointer (.base ⟨"Buffer", ["const"], false⟩) []) e ↔
        e = .pointer (.pointer (.base ⟨"uint8_t", [], false⟩) ["const"]) [] := by
  have distinct : ∀ p : Primitive, p.cName ∈ bufferScope.exported → bufferScope.target? p.cName = none := by
    intro p h
    cases p <;> revert h <;> decide
  refine ⟨distinct, ?_⟩
  have keeps := exported_aliases_keep_type bufferScope distinct [] (.pointer false (.named "Buffer" []))
  refine keeps.2 _ _ ?_ ?_
  · decide +kernel
  · decide +kernel

end Scope

end CInterface
