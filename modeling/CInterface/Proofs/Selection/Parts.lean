import CInterface.Proofs.Selection.Refusals
import CInterface.Resolution

/-!
# Selections in parts

A selection goes through its input once, so that what it makes of the end depends on the beginning only by what was
accepted there. A declaration that is not accepted can be taken out: nothing else is judged otherwise. The aliases of
a selection are looked up as the first supported ones of their names.
-/

namespace CInterface

open Source

/-- The aliases of a list that can be followed. -/
def supportedAliases (ds : List Declaration) : List Alias :=
  (ds.filterMap (·.alias?)).filter (·.isSupported)

@[simp] theorem supportedAliases_append (xs ys : List Declaration) :
    supportedAliases (xs ++ ys) = supportedAliases xs ++ supportedAliases ys := by
  simp [supportedAliases]

theorem supportedAliases_cons (d : Declaration) (ds : List Declaration) :
    supportedAliases (d :: ds) = supportedAliases [d] ++ supportedAliases ds :=
  supportedAliases_append [d] ds

theorem mem_supportedAliases {a : Alias} {ds : List Declaration} :
    a ∈ supportedAliases ds ↔ .alias a ∈ ds ∧ a.isSupported = true := by
  have own (d : Declaration) : d.alias? = some a ↔ d = .alias a := by
    cases d <;> simp [Declaration.alias?]
  simp [supportedAliases, own]

/-- An alias whose name has occurred before is not among the first. -/
theorem firstByName_skip {seen : List String} {before : List Alias} {a : Alias} (after : List Alias)
    (h : a.name ∈ seen ∨ a.name ∈ before.map Alias.name) :
    firstByName seen (before ++ a :: after) = firstByName seen (before ++ after) := by
  induction before generalizing seen with
  | nil =>
    have known : a.name ∈ seen := by simpa using h
    rw [List.nil_append, firstByName, if_pos known, List.nil_append]
  | cons b before ih =>
    simp only [List.cons_append, firstByName]
    split
    next known =>
      refine ih ?_
      rw [List.map_cons, List.mem_cons] at h
      obtain seen | same | later := h
      · exact .inl seen
      · exact .inl (same ▸ known)
      · exact .inr later
    next =>
      refine congrArg (b :: ·) (ih ?_)
      rw [List.map_cons, List.mem_cons] at h
      obtain seen | same | later := h
      · exact .inl (List.mem_cons_of_mem _ seen)
      · exact .inl (same ▸ List.mem_cons_self)
      · exact .inr later

theorem lookup_firstByName {seen : List String} {name : String} (unseen : name ∉ seen) (as : List Alias) :
    ((firstByName seen as).map fun a => (a.name, a.target)).lookup name =
      (as.find? (·.name == name)).map (·.target) := by
  induction as generalizing seen with
  | nil => rfl
  | cons a as ih =>
    by_cases here : a.name = name
    · subst here
      simp [firstByName, unseen]
    · have differ : (name == a.name) = false := by simpa using Ne.symm here
      have passed : (a :: as).find? (·.name == name) = as.find? (·.name == name) := by
        rw [List.find?_cons_of_neg (by simpa using here)]
      rw [passed, firstByName]
      split
      · exact ih unseen
      · rw [List.map_cons, List.lookup_cons, differ]
        exact ih (by simp [unseen, Ne.symm here])

/-- An alias is looked up as the first supported one of its name. -/
theorem Scope.target?_ofSelection (ds : List Declaration) (name : String) :
    (Scope.ofSelection (.of ds)).target? name =
      ((supportedAliases ds).find? (·.name == name)).map (·.target) :=
  lookup_firstByName List.not_mem_nil _

namespace Selection

theorem judge_append (taken xs ys : List Declaration) :
    judge taken (xs ++ ys) = judge taken xs ++ judge (taken ++ acceptedAfter taken xs) ys := by
  induction xs generalizing taken with
  | nil => simp [judge]
  | cons x xs ih =>
    cases hv : verdict taken x with
    | accepted =>
      rw [acceptedAfter_cons_accepted xs hv]
      simp [judge, hv, ih]
    | internal =>
      rw [acceptedAfter_cons_other xs (by simp [hv])]
      simp only [List.cons_append, judge, hv, ih]
    | refused cause =>
      rw [acceptedAfter_cons_other xs (by simp [hv])]
      simp only [List.cons_append, judge, hv, ih]

theorem acceptedAfter_append (taken xs ys : List Declaration) :
    acceptedAfter taken (xs ++ ys) = acceptedAfter taken xs ++ acceptedAfter (taken ++ acceptedAfter taken xs) ys := by
  simp only [acceptedAfter, judge_append, List.filterMap_append]

theorem refusedAfter_append (taken xs ys : List Declaration) :
    refusedAfter taken (xs ++ ys) = refusedAfter taken xs ++ refusedAfter (taken ++ acceptedAfter taken xs) ys := by
  simp only [refusedAfter, judge_append, List.filterMap_append]

section

variable {before : List Declaration} {d : Declaration}

/-- Taking out what is not accepted leaves what is. -/
theorem accepted_without (after : List Declaration) (h : verdict (of before).accepted d ≠ .accepted) :
    (of (before ++ d :: after)).accepted = (of (before ++ after)).accepted := by
  change acceptedAfter [] _ = acceptedAfter [] _
  rw [acceptedAfter_append, acceptedAfter_append]
  exact congrArg _ (acceptedAfter_cons_other after h)

/-- Taking out what is not accepted leaves all diagnostics but its own. -/
theorem diagnostics_without (after : List Declaration) (h : verdict (of before).accepted d ≠ .accepted) :
    ∃ rest, (of (before ++ after)).diagnostics = (of before).diagnostics ++ rest ∧
      (of (before ++ d :: after)).diagnostics =
        (of before).diagnostics ++ (diagnostic? (d, verdict (of before).accepted d)).toList ++ rest := by
  refine ⟨(refusedAfter (of before).accepted after).map fun r => Diagnostic.of r.1 r.2, ?_, ?_⟩
  · rw [diagnostics_eq, diagnostics_eq, refusedAfter_append, List.map_append]
    rfl
  · have own : (refusedAfter (of before).accepted (d :: after)).map (fun r => Diagnostic.of r.1 r.2) =
        (diagnostic? (d, verdict (of before).accepted d)).toList ++
          (refusedAfter (of before).accepted after).map fun r => Diagnostic.of r.1 r.2 := by
      cases hv : verdict (of before).accepted d with
      | accepted => exact absurd hv h
      | internal =>
        rw [refusedAfter_cons_internal after hv]
        rfl
      | refused cause =>
        rw [refusedAfter_cons_refused after hv]
        rfl
    rw [diagnostics_eq, diagnostics_eq, refusedAfter_append, List.map_append, List.append_assoc, ← own]
    rfl

/-- Taking out what is no supported alias, or one of a name that has occurred before, leaves the aliases. -/
theorem aliases_without (after : List Declaration)
    (later : ∀ a, d = .alias a → a.isSupported = true → a.name ∈ (supportedAliases before).map Alias.name) :
    (of (before ++ d :: after)).aliases = (of (before ++ after)).aliases := by
  change firstByName [] (supportedAliases _) = firstByName [] (supportedAliases _)
  rw [supportedAliases_append, supportedAliases_cons, supportedAliases_append]
  rcases d with a | e | s | f
  · cases supported : a.isSupported with
    | false => simp [supportedAliases, Declaration.alias?, supported]
    | true =>
      have own : supportedAliases [.alias a] = [a] := by simp [supportedAliases, Declaration.alias?, supported]
      rw [own]
      exact firstByName_skip _ (.inr (later a rfl supported))
  · rfl
  · rfl
  · rfl

end

end Selection

end CInterface
