import CInterface.Proofs.Assembly.Closure
import CInterface.Proofs.Resolution.Chains

/-!
# What the diagnostics tell of cycles

Two scopes differ in the meaning of one name. Diagnostics do not tell a function from a type of the same name, and yet
the same diagnostics for the cycles that some declarations run into mean that the same declarations run into the same
cycles: a chain begins with what makes a declaration fail.
-/

namespace CInterface

open Source

section

variable {α β : Type} {f g : α → Option β} {xs : List α}

theorem eq_of_filterMap_eq (same : xs.filterMap f = xs.filterMap g) (alike : ∀ x ∈ xs, (f x).isSome = (g x).isSome) :
    ∀ x ∈ xs, f x = g x := by
  induction xs with
  | nil => exact fun x hx => absurd hx List.not_mem_nil
  | cons x xs ih =>
    obtain ⟨first, others⟩ := List.forall_mem_cons.1 alike
    cases hf : f x with
    | none =>
      have hg : g x = none := by simpa [hf] using first.symm
      rw [List.filterMap_cons_none hf, List.filterMap_cons_none hg] at same
      exact List.forall_mem_cons.2 ⟨hf.trans hg.symm, ih same others⟩
    | some b =>
      obtain ⟨b', hg⟩ := Option.isSome_iff_exists.1 (first.symm.trans (by rw [hf]; rfl))
      rw [List.filterMap_cons_some hf, List.filterMap_cons_some hg] at same
      obtain ⟨rfl, rest⟩ := List.cons.inj same
      exact List.forall_mem_cons.2 ⟨hf.trans hg.symm, ih rest others⟩

/-- What two members give on one side is given by two members on the other side. -/
theorem exists_other_mem [DecidableEq α] (nodup : xs.Nodup) (same : xs.filterMap f = xs.filterMap g) {x y : α}
    (hx : x ∈ xs) (hy : y ∈ xs) (differ : x ≠ y) {b : β} (fx : f x = some b) (fy : f y = some b)
    (gy : g y = some b) : ∃ z ∈ xs, z ≠ y ∧ g z = some b := by
  have split := List.perm_cons_erase hy
  have rest : ((xs.erase y).filterMap f).Perm ((xs.erase y).filterMap g) := by
    have left := split.filterMap f
    have right := split.filterMap g
    rw [List.filterMap_cons_some fy, same] at left
    rw [List.filterMap_cons_some gy] at right
    exact (left.symm.trans right).cons_inv
  have mem : b ∈ (xs.erase y).filterMap f :=
    List.mem_filterMap.2 ⟨x, (List.mem_erase_of_ne differ).2 hx, fx⟩
  obtain ⟨z, hz, gz⟩ := List.mem_filterMap.1 (rest.mem_iff.1 mem)
  obtain ⟨other, mem⟩ := (nodup.mem_erase_iff).1 hz
  exact ⟨z, mem, other, gz⟩

end

/-- That a chain of aliases closes. -/
def Diagnostic.Cause.isCycle : Diagnostic.Cause → Bool
  | .aliasCycle _ => true
  | _ => false

namespace Assembly

variable {s s' : Scope} {n : String} {ds : List Declaration} {d e : Declaration} {a : Alias} {c : Cycle}

theorem cycle?_eq_some {g : Diagnostic} : cycle? s d = some g ↔
    ∃ c, s.resolveDeclaration d = .error c ∧ Diagnostic.of d (.aliasCycle c.chain) = g := by
  cases h : s.resolveDeclaration d <;> simp [cycle?, h]

/-- What a declaration looks like in the diagnostics tells its cycle. -/
theorem error_of_cycle? (shows : cycle? s e = some (.of d (.aliasCycle c.chain))) :
    s.resolveDeclaration e = .error c ∧ Diagnostic.of e (.aliasCycle c.chain) = .of d (.aliasCycle c.chain) := by
  obtain ⟨⟨chain⟩, fails, look⟩ := cycle?_eq_some.1 shows
  have chains : chain = c.chain := Diagnostic.Cause.aliasCycle.inj (congrArg Diagnostic.cause look)
  subst chains
  exact ⟨fails, look⟩

/-- The diagnostics for cycles are those of the accepted declarations, section by section. -/
theorem filter_isCycle_diagnostics (ds : List Declaration) (target : String) :
    (of ds target).diagnostics.filter (·.cause.isCycle) =
      (Selection.of ds).inSections.filterMap (cycle? (scope ds)) := by
  have selection : (Selection.of ds).diagnostics.filter (·.cause.isCycle) = [] := by
    refine List.filter_eq_nil_iff.2 fun g hg cyclic => selection_diagnostics_kind hg ?_
    cases cause : g.cause <;> simp [cause, Diagnostic.Cause.isCycle] at cyclic
    rfl
  have cycles : (((Selection.of ds).inSections.filterMap (cycleReport? (scope ds))).map fun r =>
      Diagnostic.of r.1 r.2).filter (·.cause.isCycle) = (Selection.of ds).inSections.filterMap (cycle? (scope ds)) := by
    rw [← filterMap_cycle?, List.filter_eq_self]
    intro g hg
    obtain ⟨d, -, shows⟩ := List.mem_filterMap.1 hg
    obtain ⟨c, -, rfl⟩ := cycle?_eq_some.1 shows
    rfl
  have dependents : (((blamed (cycleNames ds) (candidates ds)).map fun b =>
      (b.1.source, Diagnostic.Cause.dependency b.2)).map fun r => Diagnostic.of r.1 r.2).filter (·.cause.isCycle) = [] := by
    refine List.filter_eq_nil_iff.2 fun g hg => ?_
    rw [List.map_map] at hg
    obtain ⟨b, -, rfl⟩ := List.mem_map.1 hg
    simp [Diagnostic.of, Diagnostic.Cause.isCycle]
  rw [diagnostics_of, reports, List.map_append, List.filter_append, List.filter_append, selection, cycles, dependents,
    List.nil_append, List.append_nil]

theorem entered_eq_nil_or (d : Declaration) : d.entered = [] ∨ ∃ a, d = .alias a := by
  rcases d with a | e | s | f
  · exact .inr ⟨a, rfl⟩
  · exact .inl rfl
  · exact .inl rfl
  · exact .inl rfl

/-- A declaration fails like another one that starts where it does. -/
theorem error_of_entered (same : d.entered = e.entered) (h : s.resolveDeclaration d = .error c)
    (h' : s'.resolveDeclaration e = .error c) : ∃ c', s'.resolveDeclaration d = .error c' := by
  obtain ⟨t, ht, fails⟩ := Scope.exists_type_error h
  obtain ⟨u, -, fails'⟩ := Scope.exists_type_error h'
  obtain ⟨m, rest, hm, chain⟩ := Scope.chain_of_error fails
  obtain ⟨m', rest', hm', chain'⟩ := Scope.chain_of_error fails'
  rw [chain, same, List.append_cancel_left_eq, List.cons.injEq] at chain'
  rw [← same] at fails'
  exact Scope.resolveDeclaration_fails ht (Scope.error_of_baseName? fails' (by rw [hm, hm', chain'.1]))

/-- A declaration that starts with nothing followed, and an alias with the same chain: the chain enters the name of the
alias, and goes on from whatever that name is looked up as like the alias itself. -/
theorem meets_alias (plain : d.entered = []) (h : s.resolveDeclaration d = .error c)
    (h' : s'.resolve [a.name] a.target = .error c) :
    (∃ t ∈ d.types, t.baseName? = some a.name) ∧
      ∃ u, s.target? a.name = some u ∧ s.resolve [a.name] u = .error c ∧ u.baseName? = a.target.baseName? := by
  obtain ⟨t, ht, fails⟩ := Scope.exists_type_error h
  rw [plain] at fails
  obtain ⟨m, rest, hm, chain⟩ := Scope.chain_of_error fails
  obtain ⟨m', rest', hm', chain'⟩ := Scope.chain_of_error h'
  rw [chain, List.nil_append, List.singleton_append, List.cons.injEq] at chain'
  obtain ⟨rfl, rfl⟩ := chain'
  have start : s.resolve [] (.named a.name []) = .error c := Scope.error_of_baseName? fails hm.symm
  obtain ⟨u, hu, next⟩ := Scope.target_of_error List.not_mem_nil start
  obtain ⟨m, rest, hu', chain''⟩ := Scope.chain_of_error next
  rw [chain] at chain''
  cases chain''
  exact ⟨⟨t, ht, hm⟩, u, hu, next, hu'.trans hm'.symm⟩

/-- An alias fails like a declaration whose chain begins with it. -/
theorem alias_error_of_plain (plain : e.entered = []) (h : s.resolveDeclaration (.alias a) = .error c)
    (h' : s'.resolveDeclaration e = .error c) : ∃ c', s'.resolveDeclaration (.alias a) = .error c' := by
  rw [Scope.resolveDeclaration, except_map_error] at h
  obtain ⟨-, u, -, next, same⟩ := meets_alias plain h' h
  exact Scope.resolveDeclaration_fails List.mem_cons_self (Scope.error_of_baseName? next same.symm)

variable (off : ∀ name, name ≠ n → s.target? name = s'.target? name)

include off

/-- A declaration fails like an alias that its chain begins with. -/
theorem error_of_alias (plain : d.entered = []) (differ : a.name ≠ n) (h : s.resolveDeclaration d = .error c)
    (h' : s'.resolveDeclaration (.alias a) = .error c) : ∃ c', s'.resolveDeclaration d = .error c' := by
  rw [Scope.resolveDeclaration, except_map_error] at h'
  obtain ⟨⟨t, ht, base⟩, u, hu, -, same⟩ := meets_alias plain h h'
  have next : s'.resolve [a.name] u = .error c := Scope.error_of_baseName? h' same
  have start := Scope.error_of_target List.not_mem_nil [] (off a.name differ ▸ hu) next
  exact Scope.resolveDeclaration_fails ht (plain ▸ Scope.error_of_baseName? start base)

variable (nodup : ds.Nodup)
  (aliases : ∀ a a', Declaration.alias a ∈ ds → Declaration.alias a' ∈ ds → a.name = a'.name → a = a')

include nodup aliases

/-- What fails in one scope fails in the other one, if the diagnostics are the same. -/
theorem exists_error (same : ds.filterMap (cycle? s) = ds.filterMap (cycle? s')) (hd : d ∈ ds)
    (h : s.resolveDeclaration d = .error c) : ∃ c', s'.resolveDeclaration d = .error c' := by
  have own : cycle? s d = some (.of d (.aliasCycle c.chain)) := cycle?_eq_some.2 ⟨c, h, rfl⟩
  obtain ⟨e, he, shows⟩ := List.mem_filterMap.1 (same ▸ List.mem_filterMap.2 ⟨d, hd, own⟩)
  obtain ⟨fails, look⟩ := error_of_cycle? shows
  have names : e.name = d.name := congrArg Diagnostic.name look
  rcases entered_eq_nil_or d with plain | ⟨a, rfl⟩
  · rcases entered_eq_nil_or e with plain' | ⟨b, rfl⟩
    · exact error_of_entered (plain.trans plain'.symm) h fails
    · by_cases differ : b.name = n
      · -- the alias fails in both scopes, so that another declaration must have the diagnostic
        have both : s.resolveDeclaration (.alias b) = .error c := by
          rw [Scope.resolveDeclaration, except_map_error] at fails ⊢
          refine Scope.error_of_agree (fun m hm => (off m fun same => hm ?_).symm) fails
          rw [same, ← differ]
          exact List.mem_singleton_self _
        have others : d ≠ .alias b := by
          rintro rfl
          cases plain
        obtain ⟨e, he', different, shows'⟩ :=
          exists_other_mem nodup same hd he others own (cycle?_eq_some.2 ⟨c, both, look⟩) shows
        obtain ⟨fails', look'⟩ := error_of_cycle? shows'
        rcases entered_eq_nil_or e with plain' | ⟨b', rfl⟩
        · exact error_of_entered (plain.trans plain'.symm) h fails'
        · have one : b' = b := aliases b' b he' he ((congrArg Diagnostic.name look').trans names.symm)
          exact absurd (congrArg Declaration.alias one) different
      · exact error_of_alias off plain differ h fails
  · rcases entered_eq_nil_or e with plain' | ⟨b, rfl⟩
    · exact alias_error_of_plain plain' h fails
    · have start : (Declaration.alias a).entered = (Declaration.alias b).entered :=
        congrArg (fun name => [name]) names.symm
      exact error_of_entered start h fails

/-- The same diagnostics come from the same cycles. -/
theorem cycles_of_diagnostics (same : ds.filterMap (cycle? s) = ds.filterMap (cycle? s')) (hd : d ∈ ds) (c : Cycle) :
    s.resolveDeclaration d = .error c ↔ s'.resolveDeclaration d = .error c := by
  have fails (s : Scope) (d : Declaration) :
      (cycle? s d).isSome = true ↔ ∃ c, s.resolveDeclaration d = .error c := by
    cases h : s.resolveDeclaration d <;> simp [cycle?, h]
  have alike : ∀ e ∈ ds, cycle? s e = cycle? s' e := by
    refine eq_of_filterMap_eq same fun e he => Bool.eq_iff_iff.2 ?_
    rw [fails, fails]
    constructor
    · rintro ⟨c, h⟩
      exact exists_error off nodup aliases same he h
    · rintro ⟨c, h⟩
      exact exists_error (fun m hm => (off m hm).symm) nodup aliases same.symm he h
  have chains (s : Scope) : s.resolveDeclaration d = .error c ↔ cycle? s d = some (.of d (.aliasCycle c.chain)) :=
    ⟨fun h => cycle?_eq_some.2 ⟨c, h, rfl⟩, fun shows => (error_of_cycle? shows).1⟩
  rw [chains, chains, alike d hd]

end Assembly

end CInterface
