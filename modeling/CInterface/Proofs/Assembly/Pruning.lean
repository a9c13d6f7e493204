import CInterface.Assembly
import Mathlib.Data.List.Basic
import Mathlib.Data.List.Perm.Basic

/-!
# Leaving out dependents round by round

A round looks only at the names left out in the round before. What all rounds together leave out is nevertheless
the least set that holds everything using a name dropped at the start or the name of a member, and each member is
blamed once, on a name dropped at the start or on a member blamed before it.
-/

namespace CInterface

theorem append_eq_split {α : Type} {xs ys before after : List α} {a : α}
    (h : xs ++ ys = before ++ a :: after) :
    (∃ rest, xs = before ++ a :: rest) ∨ ∃ rest, before = xs ++ rest ∧ ys = rest ++ a :: after := by
  rcases List.append_eq_append_iff.1 h with ⟨rest, hb, hy⟩ | ⟨rest, hx, hy⟩
  · exact .inr ⟨rest, hb, hy⟩
  · cases rest with
    | nil => exact .inr ⟨[], by simpa using hx.symm, hy.symm⟩
    | cons b rest =>
      obtain ⟨rfl, -⟩ := List.cons.inj hy
      exact .inl ⟨rest, hx⟩

namespace Resolved

/-- A declaration uses a name if it is the base of one of its types. -/
def Uses (r : Resolved) (name : String) : Prop := ∃ t ∈ r.item.references, t.baseType.name = name

theorem dependency?_eq_none {dropped : List String} {r : Resolved} :
    r.dependency? dropped = none ↔ ∀ name ∈ dropped, ¬ r.Uses name := by
  simp only [dependency?, List.find?_eq_none, List.mem_map, decide_eq_true_eq, Uses]
  constructor
  · rintro h name hn ⟨t, ht, rfl⟩
    exact h _ ⟨t, ht, rfl⟩ hn
  · rintro h name ⟨t, ht, rfl⟩ hn
    exact h _ hn ⟨t, ht, rfl⟩

theorem dependency?_eq_some {dropped : List String} {r : Resolved} {name : String}
    (h : r.dependency? dropped = some name) : name ∈ dropped ∧ r.Uses name := by
  have mem := List.mem_of_find?_eq_some h
  obtain ⟨t, ht, rfl⟩ := List.mem_map.1 mem
  exact ⟨by simpa using List.find?_some h, t, ht, rfl⟩

theorem mem_dependents {dropped : List String} {rs : List Resolved} {r : Resolved} :
    r ∈ dependents dropped rs ↔ r ∈ rs ∧ ∃ name ∈ dropped, r.Uses name := by
  rw [dependents, List.mem_filter, Option.isSome_iff_ne_none, Ne, dependency?_eq_none]
  push Not
  rfl

theorem mem_independents {dropped : List String} {rs : List Resolved} {r : Resolved} :
    r ∈ independents dropped rs ↔ r ∈ rs ∧ ∀ name ∈ dropped, ¬ r.Uses name := by
  rw [independents, List.mem_filter, Option.isNone_iff_eq_none, dependency?_eq_none]

/-- Falling is the least property that everything using a dropped name has, and everything using the name of
something that falls. -/
inductive Falls (dropped : List String) (rs : List Resolved) : Resolved → Prop
  | direct {r : Resolved} {name : String} (hr : r ∈ rs) (hn : name ∈ dropped) (use : r.Uses name) :
      Falls dropped rs r
  | step {r e : Resolved} (hr : r ∈ rs) (he : Falls dropped rs e) (use : r.Uses e.item.name) :
      Falls dropped rs r

theorem Falls.mem {dropped : List String} {rs : List Resolved} {r : Resolved} (h : Falls dropped rs r) :
    r ∈ rs := by
  cases h with
  | direct hr hn use => exact hr
  | step hr he use => exact hr

/-- What falls either depends on a dropped name at once, or falls among the rest when the names of these
dependents are dropped. -/
theorem falls_iff {dropped : List String} {rs : List Resolved} {r : Resolved} :
    Falls dropped rs r ↔ r ∈ dependents dropped rs ∨
      Falls ((dependents dropped rs).map (·.item.name)) (independents dropped rs) r := by
  constructor
  · intro h
    induction h with
    | direct hr hn use => exact .inl (mem_dependents.2 ⟨hr, _, hn, use⟩)
    | @step r e hr _ use ih =>
      by_cases now : ∃ name ∈ dropped, r.Uses name
      · exact .inl (mem_dependents.2 ⟨hr, now⟩)
      · push Not at now
        have later := mem_independents.2 ⟨hr, now⟩
        rcases ih with he | he
        · exact .inr (.direct later (List.mem_map.2 ⟨e, he, rfl⟩) use)
        · exact .inr (.step later he use)
  · rintro (h | h)
    · obtain ⟨hr, name, hn, use⟩ := mem_dependents.1 h
      exact .direct hr hn use
    · induction h with
      | direct hr hn use =>
        obtain ⟨e, he, rfl⟩ := List.mem_map.1 hn
        obtain ⟨he, name, hn, use'⟩ := mem_dependents.1 he
        exact .step (mem_independents.1 hr).1 (.direct he hn use') use
      | step hr _ use ih => exact .step (mem_independents.1 hr).1 ih use

theorem not_falls {dropped : List String} {rs : List Resolved} (h : dependents dropped rs = [])
    (r : Resolved) : ¬ Falls dropped rs r := by
  intro hf
  induction hf with
  | @direct r name hr hn use =>
    have mem : r ∈ dependents dropped rs := mem_dependents.2 ⟨hr, name, hn, use⟩
    rw [h] at mem
    cases mem
  | step _ _ _ ih => exact ih

/-- The declarations left out in one round, each with the name it is left out for. -/
def blames (dropped : List String) (rs : List Resolved) : List (Resolved × String) :=
  rs.filterMap fun r => (r.dependency? dropped).map (r, ·)

theorem map_fst_blames (dropped : List String) (rs : List Resolved) :
    (blames dropped rs).map Prod.fst = dependents dropped rs := by
  induction rs with
  | nil => rfl
  | cons r rs ih =>
    simp only [blames, dependents] at ih ⊢
    cases h : r.dependency? dropped <;> simp [h, ih]

theorem mem_blames {dropped : List String} {rs : List Resolved} {r : Resolved} {name : String}
    (h : (r, name) ∈ blames dropped rs) : r ∈ rs ∧ name ∈ dropped ∧ r.Uses name := by
  obtain ⟨r', hr', h⟩ := List.mem_filterMap.1 h
  obtain ⟨n, hn, same⟩ := Option.map_eq_some_iff.1 h
  cases same
  exact ⟨hr', dependency?_eq_some hn⟩

theorem dependents_append_independents_perm (dropped : List String) (rs : List Resolved) :
    (dependents dropped rs ++ independents dropped rs).Perm rs := by
  have h := List.filter_append_perm (fun r => (dependency? dropped r).isSome) rs
  simpa [dependents, independents, Option.not_isSome] using h

end Resolved

open Resolved

/-- The declarations left out in all rounds, each with the name it is left out for. -/
def blamed (dropped : List String) (rs : List Resolved) : List (Resolved × String) :=
  if _h : dependents dropped rs = [] then []
  else blames dropped rs ++ blamed ((dependents dropped rs).map (·.item.name)) (independents dropped rs)
termination_by rs.length
decreasing_by exact length_independents_lt _h

theorem prune_done {dropped : List String} {rs : List Resolved} (h : dependents dropped rs = []) :
    prune dropped rs = (rs, []) := by
  rw [prune, dif_pos h]

theorem prune_round {dropped : List String} {rs : List Resolved} (h : dependents dropped rs ≠ []) :
    (prune dropped rs).1 =
        (prune ((dependents dropped rs).map (·.item.name)) (independents dropped rs)).1 ∧
      (prune dropped rs).2 = rs.filterMap (·.diagnostic? dropped) ++
        (prune ((dependents dropped rs).map (·.item.name)) (independents dropped rs)).2 := by
  rw [prune, dif_neg h]
  exact ⟨rfl, rfl⟩

theorem blamed_done {dropped : List String} {rs : List Resolved} (h : dependents dropped rs = []) :
    blamed dropped rs = [] := by
  rw [blamed, dif_pos h]

theorem blamed_round {dropped : List String} {rs : List Resolved} (h : dependents dropped rs ≠ []) :
    blamed dropped rs =
      blames dropped rs ++ blamed ((dependents dropped rs).map (·.item.name)) (independents dropped rs) := by
  rw [blamed, dif_neg h]

theorem prune_kept_sublist (dropped : List String) (rs : List Resolved) :
    (prune dropped rs).1.Sublist rs := by
  induction dropped, rs using blamed.induct with
  | case1 dropped rs h => rw [prune_done h]
  | case2 dropped rs h ih =>
    rw [(prune_round h).1]
    exact ih.trans List.filter_sublist

theorem mem_prune_kept {dropped : List String} {rs : List Resolved} {r : Resolved} :
    r ∈ (prune dropped rs).1 ↔ r ∈ rs ∧ ¬ Falls dropped rs r := by
  induction dropped, rs using blamed.induct with
  | case1 dropped rs h => simp [prune_done h, not_falls h r]
  | case2 dropped rs h ih =>
    rw [(prune_round h).1, ih, @falls_iff dropped rs]
    constructor
    · rintro ⟨hr, hf⟩
      obtain ⟨hr, unused⟩ := mem_independents.1 hr
      refine ⟨hr, not_or.2 ⟨fun hd => ?_, hf⟩⟩
      obtain ⟨-, name, hn, use⟩ := mem_dependents.1 hd
      exact unused name hn use
    · rintro ⟨hr, hf⟩
      obtain ⟨hd, hf⟩ := not_or.1 hf
      exact ⟨mem_independents.2 ⟨hr, fun name hn use => hd (mem_dependents.2 ⟨hr, name, hn, use⟩)⟩, hf⟩

theorem prune_diagnostics (dropped : List String) (rs : List Resolved) :
    (prune dropped rs).2 = (blamed dropped rs).map fun b => .of b.1.source (.dependency b.2) := by
  induction dropped, rs using blamed.induct with
  | case1 dropped rs h => rw [prune_done h, blamed_done h, List.map_nil]
  | case2 dropped rs h ih =>
    rw [(prune_round h).2, blamed_round h, List.map_append, ← ih, blames, List.map_filterMap]
    simp only [diagnostic?, Option.map_map, Function.comp_def]

/-- Everything is blamed once or kept. -/
theorem prune_perm (dropped : List String) (rs : List Resolved) :
    ((blamed dropped rs).map Prod.fst ++ (prune dropped rs).1).Perm rs := by
  induction dropped, rs using blamed.induct with
  | case1 dropped rs h => simp [prune_done h, blamed_done h]
  | case2 dropped rs h ih =>
    rw [(prune_round h).1, blamed_round h, List.map_append, map_fst_blames, List.append_assoc]
    exact (ih.append_left _).trans (dependents_append_independents_perm dropped rs)

/-- The name that something is blamed on was dropped at the start or belongs to something blamed before. -/
theorem blamed_order {dropped : List String} {rs : List Resolved} {before after : List (Resolved × String)}
    {r : Resolved} {name : String} (h : blamed dropped rs = before ++ (r, name) :: after) :
    r.Uses name ∧ (name ∈ dropped ∨ ∃ e ∈ before.map Prod.fst, e.item.name = name) := by
  induction dropped, rs using blamed.induct generalizing before with
  | case1 dropped rs hd =>
    rw [blamed_done hd] at h
    simp at h
  | case2 dropped rs hd ih =>
    rw [blamed_round hd] at h
    rcases append_eq_split h with ⟨rest, hb⟩ | ⟨rest, rfl, hl⟩
    · have mem : (r, name) ∈ blames dropped rs := by simp [hb]
      exact ⟨(mem_blames mem).2.2, .inl (mem_blames mem).2.1⟩
    · -- the blame falls in a later round
      rw [List.map_append, map_fst_blames]
      obtain ⟨use, hn | ⟨e, he, hn⟩⟩ := ih hl
      · obtain ⟨e, he, rfl⟩ := List.mem_map.1 hn
        exact ⟨use, .inr ⟨e, List.mem_append_left _ he, rfl⟩⟩
      · exact ⟨use, .inr ⟨e, List.mem_append_right _ he, hn⟩⟩

/-- Rounds look at the source of a declaration only for the diagnostic. -/
theorem prune_map (f : Resolved → Resolved) (item : ∀ r, (f r).item = r.item)
    (look : ∀ r cause, Diagnostic.of (f r).source cause = .of r.source cause) (dropped : List String)
    (rs : List Resolved) : prune dropped (rs.map f) = (prune dropped rs).map (List.map f) id := by
  have same (dropped : List String) (r : Resolved) : (f r).dependency? dropped = r.dependency? dropped := by
    rw [dependency?, item, dependency?]
  have dependents_map (dropped : List String) (rs : List Resolved) :
      dependents dropped (rs.map f) = (dependents dropped rs).map f := by
    simp only [dependents, List.filter_map, Function.comp_def, same]
  have independents_map (dropped : List String) (rs : List Resolved) :
      independents dropped (rs.map f) = (independents dropped rs).map f := by
    simp only [independents, List.filter_map, Function.comp_def, same]
  induction dropped, rs using blamed.induct with
  | case1 dropped rs h =>
    have h' : dependents dropped (rs.map f) = [] := by rw [dependents_map, h, List.map_nil]
    rw [prune_done h, prune_done h']
    rfl
  | case2 dropped rs h ih =>
    have h' : dependents dropped (rs.map f) ≠ [] := by
      rw [dependents_map]
      exact fun none => h (List.map_eq_nil_iff.1 none)
    have names : ((dependents dropped rs).map f).map (·.item.name) = (dependents dropped rs).map (·.item.name) := by
      simp only [List.map_map, Function.comp_def, item]
    have reports : (rs.map f).filterMap (·.diagnostic? dropped) = rs.filterMap (·.diagnostic? dropped) := by
      simp only [List.filterMap_map, Function.comp_def, diagnostic?, same, look]
    refine Prod.ext ?_ ?_
    · rw [(prune_round h').1, dependents_map, independents_map, names, ih, Prod.map_fst, Prod.map_fst, (prune_round h).1]
    · rw [(prune_round h').2, dependents_map, independents_map, names, ih, reports, Prod.map_snd, Prod.map_snd,
        (prune_round h).2, id, id]

section

variable {dropped dropped' : List String} {rs rs' : List Resolved}

theorem Resolved.dependency?_congr (names : ∀ name, name ∈ dropped ↔ name ∈ dropped') :
    dependency? dropped = dependency? dropped' := by
  funext r
  simp only [dependency?, names]

theorem Resolved.dependents_reordered (names : ∀ name, name ∈ dropped ↔ name ∈ dropped') (perm : rs.Perm rs') :
    (dependents dropped rs).Perm (dependents dropped' rs') := by
  rw [dependents, dependents, dependency?_congr names]
  exact perm.filter _

/-- In another order, rounds keep and blame the same. -/
theorem prune_reordered (names : ∀ name, name ∈ dropped ↔ name ∈ dropped') (perm : rs.Perm rs') :
    (prune dropped rs).1.Perm (prune dropped' rs').1 ∧ (blamed dropped rs).Perm (blamed dropped' rs') := by
  have now := dependents_reordered names perm
  induction dropped, rs using blamed.induct generalizing dropped' rs' with
  | case1 dropped rs h =>
    have h' : dependents dropped' rs' = [] := (h ▸ now).nil_eq.symm
    rw [prune_done h, prune_done h', blamed_done h, blamed_done h']
    exact ⟨perm, .refl _⟩
  | case2 dropped rs h ih =>
    have h' : dependents dropped' rs' ≠ [] := fun none => h (none ▸ now).eq_nil
    have names' (name : String) : name ∈ (dependents dropped rs).map (·.item.name) ↔
        name ∈ (dependents dropped' rs').map (·.item.name) := (now.map _).mem_iff
    have rest : (independents dropped rs).Perm (independents dropped' rs') := by
      rw [independents, independents, dependency?_congr names]
      exact perm.filter _
    obtain ⟨kept, later⟩ := ih names' rest (dependents_reordered names' rest)
    rw [(prune_round h).1, (prune_round h').1, blamed_round h, blamed_round h', blames, blames,
      dependency?_congr names]
    exact ⟨kept, (perm.filterMap _).append later⟩

end

end CInterface
