import CInterface.Proofs.Resolution.Chains
import Mathlib.Data.List.Nodup

/-!
# Cycles are found exactly

A type starts a chain of names: the name under its pointers, then the name under the pointers of what that name stands
for, and so on. The chain closes at a name that is being followed or has come before, and resolving fails exactly if it
closes somewhere, with the names up to the first such place. Which names are exported has no say in it.
-/

namespace CInterface.Scope

open Source

variable {scope : Scope} {visited : List String} {t : TypeExpr} {name : String} {c : Cycle}

/-- The names of the chain that a type starts, as long as they are aliases of something with a name. -/
def chainName? (scope : Scope) (t : TypeExpr) : Nat → Option String
  | 0 => t.baseName?
  | i + 1 => ((chainName? scope t i).bind scope.target?).bind TypeExpr.baseName?

/-- The chain comes to a name that is being followed or has come before. -/
def Closes (scope : Scope) (visited : List String) (t : TypeExpr) (i : Nat) : Prop :=
  ∃ name, scope.chainName? t i = some name ∧ (name ∈ visited ∨ ∃ j < i, scope.chainName? t j = some name)

/-- The first place at which the chain closes. -/
def ClosesFirst (scope : Scope) (visited : List String) (t : TypeExpr) (i : Nat) : Prop :=
  scope.Closes visited t i ∧ ∀ j < i, ¬ scope.Closes visited t j

theorem chainName?_congr {u : TypeExpr} (same : u.baseName? = t.baseName?) :
    scope.chainName? u = scope.chainName? t := by
  funext i
  induction i with
  | zero => exact same
  | succ i ih => rw [chainName?, chainName?, ih]

theorem chainName?_primitive (p : Primitive) (i : Nat) : scope.chainName? (.primitive p) i = none := by
  induction i with
  | zero => rfl
  | succ i ih => rw [chainName?, ih, Option.bind_none, Option.bind_none]

theorem chainName?_alias (args : List TypeExpr) (ht : scope.target? name = some t) (i : Nat) :
    scope.chainName? (.named name args) (i + 1) = scope.chainName? t i := by
  induction i with
  | zero => simp [chainName?, TypeExpr.baseName?, ht]
  | succ i ih => rw [chainName?, ih, chainName?]

theorem chainName?_other (args : List TypeExpr) (ht : scope.target? name = none) (i : Nat) :
    scope.chainName? (.named name args) (i + 1) = none := by
  induction i with
  | zero => simp [chainName?, TypeExpr.baseName?, ht]
  | succ i ih => rw [chainName?, ih, Option.bind_none, Option.bind_none]

theorem map_chainName?_alias (args : List TypeExpr) (ht : scope.target? name = some t) (i : Nat) :
    (List.range (i + 1)).map (scope.chainName? (.named name args)) =
      some name :: (List.range i).map (scope.chainName? t) := by
  rw [List.range_succ_eq_map, List.map_cons, List.map_map]
  exact congrArg (some name :: ·) (List.map_congr_left fun j _ => chainName?_alias args ht j)

theorem not_closes_of_none {i : Nat} (h : scope.chainName? t i = none) : ¬ scope.Closes visited t i := by
  rintro ⟨name, there, -⟩
  rw [h] at there
  cases there

theorem closes_pointer (isMutable : Bool) (t : TypeExpr) :
    scope.Closes visited (.pointer isMutable t) = scope.Closes visited t := by
  have same : scope.chainName? (.pointer isMutable t) = scope.chainName? t := chainName?_congr rfl
  funext i
  rw [Closes, Closes, same]

theorem closes_zero (args : List TypeExpr) : scope.Closes visited (.named name args) 0 ↔ name ∈ visited := by
  simp [Closes, chainName?, TypeExpr.baseName?]

/-- Behind an alias the chain goes on as that of its target, with one more name that is being followed. -/
theorem closes_alias (args : List TypeExpr) (ht : scope.target? name = some t) (i : Nat) :
    scope.Closes visited (.named name args) (i + 1) ↔ scope.Closes (visited ++ [name]) t i := by
  have before (n : String) : (∃ j < i + 1, scope.chainName? (.named name args) j = some n) ↔
      n = name ∨ ∃ j < i, scope.chainName? t j = some n := by
    constructor
    · rintro ⟨j, hj, here⟩
      cases j with
      | zero => exact .inl (Option.some.inj here).symm
      | succ j =>
        rw [chainName?_alias args ht] at here
        exact .inr ⟨j, Nat.lt_of_succ_lt_succ hj, here⟩
    · rintro (rfl | ⟨j, hj, here⟩)
      · exact ⟨0, Nat.succ_pos i, rfl⟩
      · exact ⟨j + 1, Nat.succ_lt_succ hj, (chainName?_alias args ht j).trans here⟩
  simp only [Closes, chainName?_alias args ht, before, List.mem_append, List.mem_singleton, or_assoc]

theorem closesFirst_zero (args : List TypeExpr) (hv : name ∈ visited) (i : Nat) :
    scope.ClosesFirst visited (.named name args) i ↔ i = 0 := by
  constructor
  · rintro ⟨-, first⟩
    by_contra later
    exact first 0 (Nat.pos_of_ne_zero later) ((closes_zero args).2 hv)
  · rintro rfl
    exact ⟨(closes_zero args).2 hv, nofun⟩

theorem not_closesFirst_zero (args : List TypeExpr) (hv : name ∉ visited) :
    ¬ scope.ClosesFirst visited (.named name args) 0 := fun first => hv ((closes_zero args).1 first.1)

theorem closesFirst_alias (args : List TypeExpr) (hv : name ∉ visited) (ht : scope.target? name = some t) (i : Nat) :
    scope.ClosesFirst visited (.named name args) (i + 1) ↔ scope.ClosesFirst (visited ++ [name]) t i := by
  rw [ClosesFirst, closes_alias args ht]
  refine and_congr_right fun _ => ⟨fun earlier j hj closes => ?_, fun earlier j hj closes => ?_⟩
  · exact earlier (j + 1) (Nat.succ_lt_succ hj) ((closes_alias args ht j).2 closes)
  · cases j with
    | zero => exact hv ((closes_zero args).1 closes)
    | succ j => exact earlier j (Nat.lt_of_succ_lt_succ hj) ((closes_alias args ht j).1 closes)

/-- The names of an error are those that were being followed and those of the chain up to where it first closes. -/
theorem resolve_error_iff_closesFirst : scope.resolve visited t = .error c ↔
    ∃ i, scope.ClosesFirst visited t i ∧
      c.chain.map some = visited.map some ++ (List.range (i + 1)).map (scope.chainName? t) := by
  induction visited, t using resolve.induct scope with
  | case1 visited p =>
    rw [resolve_primitive]
    refine iff_of_false (by simp) ?_
    rintro ⟨i, first, -⟩
    exact not_closes_of_none (chainName?_primitive p i) first.1
  | case2 visited isMutable t ih =>
    have same : scope.chainName? (.pointer isMutable t) = scope.chainName? t := chainName?_congr rfl
    rw [resolve_pointer, except_map_error, ih]
    simp only [ClosesFirst, closes_pointer, same]
  | case3 visited name args hv =>
    rw [resolve_visited args hv]
    simp only [closesFirst_zero args hv, exists_eq_left]
    have names : visited.map some ++ (List.range (0 + 1)).map (scope.chainName? (.named name args)) =
        (visited ++ [name]).map some := by
      rw [List.map_append]
      rfl
    rw [names, List.map_inj_right fun _ _ => Option.some.inj]
    constructor
    · intro h
      cases h
      rfl
    · intro h
      rw [← h]
  | case4 visited name args hv t ht ih =>
    rw [resolve_alias args hv ht, except_map_error, ih]
    have names (i : Nat) : visited.map some ++ (List.range (i + 1 + 1)).map (scope.chainName? (.named name args)) =
        (visited ++ [name]).map some ++ (List.range (i + 1)).map (scope.chainName? t) := by
      rw [map_chainName?_alias args ht, List.map_append, List.append_assoc]
      rfl
    constructor
    · rintro ⟨i, first, chain⟩
      exact ⟨i + 1, (closesFirst_alias args hv ht i).2 first, chain.trans (names i).symm⟩
    · rintro ⟨i, first, chain⟩
      cases i with
      | zero => exact absurd first (not_closesFirst_zero args hv)
      | succ i => exact ⟨i, (closesFirst_alias args hv ht i).1 first, chain.trans (names i)⟩
  | case5 visited name args hv ht =>
    rw [resolve_other args hv ht]
    refine iff_of_false (by simp) ?_
    rintro ⟨i, first, -⟩
    cases i with
    | zero => exact not_closesFirst_zero args hv first
    | succ i => exact not_closes_of_none (chainName?_other args ht i) first.1

/-- A type resolves if its chain closes nowhere. -/
theorem yields_iff_not_closes : Yields (scope.resolve visited t) ↔ ∀ i, ¬ scope.Closes visited t i := by
  induction visited, t using resolve.induct scope with
  | case1 visited p =>
    rw [resolve_primitive]
    exact iff_of_true (yields_ok _) fun i => not_closes_of_none (chainName?_primitive p i)
  | case2 visited isMutable t ih => rw [resolve_pointer, yields_map, ih, closes_pointer]
  | case3 visited name args hv =>
    rw [resolve_visited args hv]
    exact iff_of_false (not_yields_error _) fun none => none 0 ((closes_zero args).2 hv)
  | case4 visited name args hv t ht ih =>
    rw [resolve_alias args hv ht, yields_map, ih]
    constructor
    · intro none i closes
      cases i with
      | zero => exact hv ((closes_zero args).1 closes)
      | succ i => exact none i ((closes_alias args ht i).1 closes)
    · exact fun none i closes => none (i + 1) ((closes_alias args ht i).2 closes)
  | case5 visited name args hv ht =>
    rw [resolve_other args hv ht]
    refine iff_of_true (yields_ok _) fun i closes => ?_
    cases i with
    | zero => exact hv ((closes_zero args).1 closes)
    | succ i => exact not_closes_of_none (chainName?_other args ht i) closes

/-- A chain closes or ends before it has come through more aliases than have not been visited. -/
theorem exists_chain_end (scope : Scope) (visited : List String) (t : TypeExpr) :
    ∃ i ≤ scope.unvisited visited, scope.Closes visited t i ∨ scope.chainName? t (i + 1) = none := by
  induction visited, t using resolve.induct scope with
  | case1 visited p => exact ⟨0, Nat.zero_le _, .inr (chainName?_primitive p 1)⟩
  | case2 visited isMutable t ih =>
    have same : scope.chainName? (.pointer isMutable t) = scope.chainName? t := chainName?_congr rfl
    rwa [closes_pointer, same]
  | case3 visited name args hv => exact ⟨0, Nat.zero_le _, .inl ((closes_zero args).2 hv)⟩
  | case4 visited name args hv t ht ih =>
    obtain ⟨i, bound, ends⟩ := ih
    refine ⟨i + 1, Nat.lt_of_le_of_lt bound (unvisited_lt hv ht), ?_⟩
    rwa [closes_alias args ht, chainName?_alias args ht]
  | case5 visited name args hv ht => exact ⟨0, Nat.zero_le _, .inr (chainName?_other args ht 0)⟩

/-- Nothing comes twice in the chain of an error but its last name. -/
theorem chain_repeats_last (distinct : visited.Nodup) (h : scope.resolve visited t = .error c) :
    ∃ before last, c.chain = before ++ [last] ∧ before.Nodup ∧ last ∈ before := by
  induction visited, t using resolve.induct scope with
  | case1 visited p =>
    rw [resolve_primitive] at h
    cases h
  | case2 visited isMutable t ih =>
    rw [resolve_pointer, except_map_error] at h
    exact ih distinct h
  | case3 visited name args hv =>
    rw [resolve_visited args hv] at h
    cases h
    exact ⟨visited, name, rfl, distinct, hv⟩
  | case4 visited name args hv t ht ih =>
    rw [resolve_alias args hv ht, except_map_error] at h
    exact ih (distinct.append (List.nodup_singleton name) (by simpa using hv)) h
  | case5 visited name args hv ht =>
    rw [resolve_other args hv ht] at h
    cases h

/-- Resolving ends, and fails exactly if the chain of the type closes: the error holds the names that were being
followed and those of the chain up to the first place where it closes, whatever is exported. What a type resolves to
does not depend on what was being followed. -/
theorem cycles_found_exactly (scope : Scope) (visited : List String) (t : TypeExpr) :
    (∃ i ≤ scope.unvisited visited, scope.Closes visited t i ∨ scope.chainName? t (i + 1) = none) ∧
      (Yields (scope.resolve visited t) ↔ ∀ i, ¬ scope.Closes visited t i) ∧
      (∀ c, scope.resolve visited t = .error c ↔
        ∃ i, scope.ClosesFirst visited t i ∧
          c.chain.map some = visited.map some ++ (List.range (i + 1)).map (scope.chainName? t)) ∧
      (visited.Nodup → ∀ c, scope.resolve visited t = .error c →
        ∃ before last, c.chain = before ++ [last] ∧ before.Nodup ∧ before.count last = 1) ∧
      (∀ exported c, ({ scope with exported := exported } : Scope).resolve visited t = .error c ↔
        scope.resolve visited t = .error c) ∧
      ∀ others c d, scope.resolve visited t = .ok c → scope.resolve others t = .ok d → c = d := by
  refine ⟨exists_chain_end scope visited t, yields_iff_not_closes, fun c => resolve_error_iff_closesFirst, ?_,
    fun exported c => ⟨error_of_agree fun _ _ => rfl, error_of_agree fun _ _ => rfl⟩, ?_⟩
  · intro distinct c h
    obtain ⟨before, last, chain, nodup, mem⟩ := chain_repeats_last distinct h
    exact ⟨before, last, chain, nodup, List.count_eq_one_of_mem nodup mem⟩
  · intro others c d hc hd
    have alone := resolve_of_subset hc (List.nil_subset visited)
    rw [resolve_of_subset hd (List.nil_subset others)] at alone
    exact (Except.ok.inj alone).symm

/-- A ring of aliases behind another one, through pointers and an exported name. -/
def ringScope : Scope :=
  ⟨[("Handle", .pointer true (.named "Node" [])), ("Node", .pointer false (.named "Link" [])),
    ("Link", .named "Node" [])], ["Node"]⟩

theorem cycle_found_ring :
    ["Entry"].Nodup ∧
      ringScope.resolve ["Entry"] (.named "Handle" []) = .error ⟨["Entry", "Handle", "Node", "Link", "Node"]⟩ ∧
      ∃ before last, ["Entry", "Handle", "Node", "Link", "Node"] = before ++ [last] ∧ before.Nodup ∧
        before.count last = 1 := by
  have fails : ringScope.resolve ["Entry"] (.named "Handle" []) =
      .error ⟨["Entry", "Handle", "Node", "Link", "Node"]⟩ := by decide +kernel
  obtain ⟨-, -, -, repeats, -⟩ := cycles_found_exactly ringScope ["Entry"] (.named "Handle" [])
  exact ⟨List.nodup_singleton _, fails, repeats (List.nodup_singleton _) _ fails⟩

end CInterface.Scope
