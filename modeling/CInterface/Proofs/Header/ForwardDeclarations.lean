import CInterface.Proofs.Header.Code
import Mathlib.Data.List.Nodup

/-!
# Forward declarations are exactly the needed ones

Declared in advance are the incomplete types that a header uses, and its structs that a typedef, a field of their own
or a field of an earlier struct uses, each once and in order of first use. So every use of an incomplete type has its
forward declaration above it, and every use of a struct of the header has that or the definition.
-/

namespace CInterface

section FirstUse

variable {α : Type} [BEq α] [LawfulBEq α]

/-- Members that are selected from a list come in the order of their first occurrence, also before a continuation of
the list in which those that have not occurred yet do so. -/
theorem idxOf_filter_append_lt (p : α → Bool) {a b : α} (ha : p a = true) (hb : p b = true)
    {xs selected rest : List α}
    (after : a ∉ xs → b ∉ xs → selected.idxOf a < selected.idxOf b → rest.idxOf a < rest.idxOf b)
    (h : (xs.filter p ++ selected).idxOf a < (xs.filter p ++ selected).idxOf b) :
    (xs ++ rest).idxOf a < (xs ++ rest).idxOf b := by
  induction xs with
  | nil => exact after List.not_mem_nil List.not_mem_nil h
  | cons x xs ih =>
    by_cases same : x = a
    · subst same
      have other : x ≠ b := by
        rintro rfl
        exact absurd h (Nat.lt_irrefl _)
      rw [List.cons_append, List.idxOf_cons_self, List.idxOf_cons_ne _ other]
      exact Nat.succ_pos _
    by_cases same' : x = b
    · subst same'
      rw [List.filter_cons_of_pos hb, List.cons_append, List.idxOf_cons_self] at h
      exact absurd h (Nat.not_lt_zero _)
    have step : (xs ++ rest).idxOf a < (xs ++ rest).idxOf b := by
      refine ih (fun ha hb => ?_) ?_
      · exact after (List.not_mem_cons_of_ne_of_not_mem (Ne.symm same) ha)
          (List.not_mem_cons_of_ne_of_not_mem (Ne.symm same') hb)
      · by_cases px : p x = true
        · rw [List.filter_cons_of_pos px, List.cons_append, List.idxOf_cons_ne _ same,
            List.idxOf_cons_ne _ same'] at h
          exact Nat.lt_of_succ_lt_succ h
        · rwa [List.filter_cons_of_neg px] at h
    rw [List.cons_append, List.idxOf_cons_ne _ same, List.idxOf_cons_ne _ same']
    exact Nat.succ_lt_succ step

/-- Without repetitions a list keeps the order of first occurrence. -/
theorem eraseDups_ordered (xs : List α) : xs.eraseDups.Pairwise fun a b => xs.idxOf a < xs.idxOf b := by
  match xs with
  | [] => exact .nil
  | x :: xs =>
    have others {a : α} (ha : a ∈ (xs.filter fun b => !b == x).eraseDups) : (!a == x) = true :=
      (List.mem_filter.1 (List.mem_eraseDups.1 ha)).2
    have differ {a : α} (ha : a ∈ (xs.filter fun b => !b == x).eraseDups) : x ≠ a := by
      rintro rfl
      simpa using others ha
    rw [List.eraseDups_cons, List.pairwise_cons]
    constructor
    · intro b hb
      rw [List.idxOf_cons_self, List.idxOf_cons_ne _ (differ hb)]
      exact Nat.succ_pos _
    · refine (eraseDups_ordered (xs.filter fun b => !b == x)).imp_of_mem fun ha hb lt => ?_
      rw [List.idxOf_cons_ne _ (differ ha), List.idxOf_cons_ne _ (differ hb)]
      have kept : (xs ++ []).idxOf _ < (xs ++ []).idxOf _ :=
        idxOf_filter_append_lt (!· == x) (others ha) (others hb) (fun _ _ none => none)
          (by rwa [List.append_nil])
      rw [List.append_nil] at kept
      exact Nat.succ_lt_succ kept
termination_by xs.length
decreasing_by exact Nat.lt_succ_of_le (List.length_filter_le _ _)

theorem nodup_eraseDups (xs : List α) : xs.eraseDups.Nodup :=
  (eraseDups_ordered xs).imp fun lt => by
    rintro rfl
    exact Nat.lt_irrefl _ lt

end FirstUse

/-- The base of a type is incomplete and has this name. -/
def CType.HasIncomplete (t : CType) (name : String) : Prop :=
  t.baseType.isIncomplete = true ∧ t.baseType.name = name

/-- The lines of a declaration as code. -/
def Item.code : Item → List Line
  | .typedef d => [.typedef d]
  | .enumeration d => d.code
  | .struct d => d.code
  | .prototype d => [.prototype d]

theorem Item.code_text (i : Item) : i.code.map Line.text = i.lines := by
  cases i with
  | enumeration d => exact d.code_text
  | struct d => exact d.code_text
  | _ => rfl

namespace Header

/-- Some lines introduce the base of a type: in advance if it is incomplete, and in advance or by its definition if
it is a struct of the header. -/
def Introduces (h : Header) (seen : List Line) (t : CType) : Prop :=
  (t.baseType.isIncomplete = true → .forward t.baseType.name ∈ seen) ∧
    (t.baseType.name ∈ h.structs.map (·.name) →
      .forward t.baseType.name ∈ seen ∨ ∃ r ∈ h.structs, r.name = t.baseType.name ∧ .structClosing r ∈ seen)

/-- The names of the incomplete types that a header uses, in the order of the text. -/
def incompleteUses (h : Header) : List String :=
  (h.references.filter (·.baseType.isIncomplete)).map (·.baseType.name)

variable {h : Header} {structs : List StructDefinition} {name : String}

theorem usedEarly_subset : usedEarly structs ⊆ structs.map (·.name) := by
  induction structs with
  | nil => exact List.Subset.refl _
  | cons s rest ih =>
    intro n hn
    rcases List.mem_append.1 hn with hn | hn
    · simpa using (List.mem_filter.1 hn).2
    · exact List.mem_cons_of_mem _ (ih hn)

/-- A struct is used early exactly if a field in front of the end of its definition uses it. -/
theorem mem_usedEarly_iff :
    name ∈ usedEarly structs ↔
      ∃ (k : Nat) (r : StructDefinition), structs[k]? = some r ∧ r.name = name ∧
        ∃ (i : Nat) (s : StructDefinition), i ≤ k ∧ structs[i]? = some s ∧ name ∈ fieldNames s := by
  induction structs with
  | nil => simp [usedEarly]
  | cons s rest ih =>
    rw [usedEarly, List.mem_append, List.mem_filter, decide_eq_true_eq, ih]
    constructor
    · rintro (⟨field, hn⟩ | ⟨k, r, hr, same, i, s', le, hs, field⟩)
      · obtain ⟨r, hr, same⟩ := List.mem_map.1 (show name ∈ (s :: rest).map (·.name) from hn)
        obtain ⟨k, hk⟩ := List.mem_iff_getElem?.1 hr
        exact ⟨k, r, hk, same, 0, s, Nat.zero_le k, rfl, field⟩
      · exact ⟨k + 1, r, hr, same, i + 1, s', Nat.succ_le_succ le, hs, field⟩
    · rintro ⟨k, r, hr, same, i, s', le, hs, field⟩
      cases i with
      | zero =>
        cases hs
        exact .inl ⟨field, List.mem_map.2 ⟨r, List.mem_of_getElem? hr, same⟩⟩
      | succ i =>
        cases k with
        | zero => exact absurd le (Nat.not_succ_le_zero i)
        | succ k => exact .inr ⟨k, r, hr, same, i, s', Nat.le_of_succ_le_succ le, hs, field⟩

theorem mem_usedEarly {first rest : List StructDefinition} {s : StructDefinition} {f : Slot} (hf : f ∈ s.fields)
    (hn : f.type.baseType.name ∈ (s :: rest).map (·.name)) :
    f.type.baseType.name ∈ usedEarly (first ++ s :: rest) := by
  obtain ⟨r, hr, same⟩ := List.mem_map.1 hn
  obtain ⟨k, hk⟩ := List.mem_iff_getElem?.1 hr
  refine mem_usedEarly_iff.2 ⟨first.length + k, r, ?_, same, first.length, s, Nat.le_add_right _ _, ?_, ?_⟩
  · rw [List.getElem?_append_right (Nat.le_add_right _ _), Nat.add_sub_cancel_left, hk]
  · rw [List.getElem?_append_right (Nat.le_refl _), Nat.sub_self, List.getElem?_cons_zero]
  · exact List.mem_map.2 ⟨f, hf, rfl⟩

/-- Early uses come in the order in which all fields use their structs first, whatever comes later. -/
theorem usedEarly_ordered {a b : String} {later : List String} (ha : a ∈ usedEarly structs)
    (hb : b ∈ usedEarly structs) (lt : (usedEarly structs).idxOf a < (usedEarly structs).idxOf b) :
    (structs.flatMap fieldNames ++ later).idxOf a < (structs.flatMap fieldNames ++ later).idxOf b := by
  induction structs with
  | nil => exact absurd ha List.not_mem_nil
  | cons s rest ih =>
    have struct {n : String} (hn : n ∈ usedEarly (s :: rest)) : decide (n ∈ s.name :: rest.map (·.name)) = true :=
      decide_eq_true (usedEarly_subset hn)
    have further {n : String} (hn : n ∈ usedEarly (s :: rest)) (no : n ∉ fieldNames s) : n ∈ usedEarly rest :=
      (List.mem_append.1 hn).resolve_left fun hf => no (List.mem_filter.1 hf).1
    -- backward uses are passed over, but no name that is listed has one before its first early use
    rw [List.flatMap_cons, List.append_assoc]
    exact idxOf_filter_append_lt (· ∈ s.name :: rest.map StructDefinition.name) (struct ha) (struct hb)
      (fun na nb lt => ih (further ha na) (further hb nb) lt) lt

theorem mem_earlyStructs :
    name ∈ h.earlyStructs ↔
      (name ∈ h.typedefs.map (·.type.baseType.name) ∧ name ∈ h.structs.map (·.name)) ∨
        name ∈ usedEarly h.structs := by
  rw [earlyStructs, List.mem_eraseDups, List.mem_append, List.mem_filter, decide_eq_true_eq]

theorem earlyStructs_subset : h.earlyStructs ⊆ h.structs.map (·.name) := by
  intro n hn
  rcases mem_earlyStructs.1 hn with ⟨-, hn⟩ | hn
  · exact hn
  · exact usedEarly_subset hn

/-- Declared in advance are the structs that a typedef, a field of their own or a field of an earlier struct uses. -/
theorem mem_earlyStructs_iff :
    name ∈ h.earlyStructs ↔
      ∃ (k : Nat) (r : StructDefinition), h.structs[k]? = some r ∧ r.name = name ∧
        ((∃ d ∈ h.typedefs, d.type.baseType.name = name) ∨
          ∃ (i : Nat) (s : StructDefinition), i ≤ k ∧ h.structs[i]? = some s ∧
            ∃ f ∈ s.fields, f.type.baseType.name = name) := by
  rw [mem_earlyStructs, mem_usedEarly_iff]
  simp only [fieldNames, List.mem_map]
  constructor
  · rintro (⟨typedef, r, hr, same⟩ | ⟨k, r, hr, same, field⟩)
    · obtain ⟨k, hk⟩ := List.mem_iff_getElem?.1 hr
      exact ⟨k, r, hk, same, .inl typedef⟩
    · exact ⟨k, r, hr, same, .inr field⟩
  · rintro ⟨k, r, hr, same, typedef | field⟩
    · exact .inl ⟨typedef, r, List.mem_of_getElem? hr, same⟩
    · exact .inr ⟨k, r, hr, same, field⟩

theorem references_eq :
    h.references = h.typedefs.map (·.type) ++ (h.structs.flatMap (·.fields.map Slot.type)
      ++ h.prototypes.flatMap fun d => d.returnType :: d.parameters.map Slot.type) := by
  simp [references, items, Item.references, List.map_eq_flatMap, List.flatMap_assoc]

theorem typedef_mem_references {d : Typedef} (hd : d ∈ h.typedefs) : d.type ∈ h.references := by
  rw [references_eq]
  exact List.mem_append_left _ (List.mem_map.2 ⟨d, hd, rfl⟩)

theorem field_mem_references {s : StructDefinition} {f : Slot} (hs : s ∈ h.structs) (hf : f ∈ s.fields) :
    f.type ∈ h.references := by
  rw [references_eq]
  exact List.mem_append_right _ (List.mem_append_left _ (List.mem_flatMap.2 ⟨s, hs, List.mem_map.2 ⟨f, hf, rfl⟩⟩))

theorem prototype_mem_references {d : Prototype} {t : CType} (hd : d ∈ h.prototypes)
    (ht : t ∈ (Line.prototype d).types) : t ∈ h.references := by
  rw [references_eq]
  exact List.mem_append_right _ (List.mem_append_right _ (List.mem_flatMap.2 ⟨d, hd, ht⟩))

theorem early_of_typedef {d : Typedef} (hd : d ∈ h.typedefs)
    (struct : d.type.baseType.name ∈ h.structs.map (·.name)) : d.type.baseType.name ∈ h.earlyStructs :=
  mem_earlyStructs.2 (.inl ⟨List.mem_map.2 ⟨d, hd, rfl⟩, struct⟩)

/-- A struct that a field uses is declared in advance or stands before the struct of the field. -/
theorem earlier_or_early_of_field {first rest : List StructDefinition} {s : StructDefinition} {f : Slot}
    (split : h.structs = first ++ s :: rest) (hf : f ∈ s.fields)
    (struct : f.type.baseType.name ∈ h.structs.map (·.name)) :
    f.type.baseType.name ∈ first.map (·.name) ∨ f.type.baseType.name ∈ h.earlyStructs := by
  rw [split, List.map_append, List.mem_append] at struct
  exact struct.imp_right fun later => mem_earlyStructs.2 (.inr (split ▸ mem_usedEarly hf later))

theorem earlyStructs_ordered (h : Header) :
    h.earlyStructs.Pairwise fun a b => h.baseNames.idxOf a < h.baseNames.idxOf b := by
  have split : h.baseNames = h.typedefs.map (·.type.baseType.name) ++ (h.structs.flatMap fieldNames
      ++ (h.prototypes.flatMap fun d => d.returnType :: d.parameters.map Slot.type).map (·.baseType.name)) := by
    simp only [baseNames, references_eq, List.map_append, List.map_map, List.map_flatMap, Function.comp_def]
    rfl
  refine (eraseDups_ordered _).imp_of_mem fun {a b} ha hb lt => ?_
  have struct {n : String} (hn : n ∈ h.earlyStructs) : decide (n ∈ h.structs.map (·.name)) = true :=
    decide_eq_true (earlyStructs_subset hn)
  have further {n : String} (hn : n ∈ h.earlyStructs) (no : n ∉ h.typedefs.map (·.type.baseType.name)) :
      n ∈ usedEarly h.structs := (mem_earlyStructs.1 hn).resolve_left fun hf => no hf.1
  rw [split]
  exact idxOf_filter_append_lt (· ∈ h.structs.map StructDefinition.name) (struct ha) (struct hb)
    (fun na nb lt => usedEarly_ordered (further ha na) (further hb nb) lt) lt

theorem mem_incompleteNames :
    name ∈ h.incompleteNames ↔ ∃ t ∈ h.references, t.baseType.isIncomplete = true ∧ t.baseType.name = name := by
  simp only [incompleteNames, List.mem_eraseDups, List.mem_map, List.mem_filter, and_assoc]

theorem mem_incompleteNames_iff :
    name ∈ h.incompleteNames ↔
      (∃ d ∈ h.typedefs, d.type.HasIncomplete name) ∨
        (∃ s ∈ h.structs, ∃ f ∈ s.fields, f.type.HasIncomplete name) ∨
          ∃ d ∈ h.prototypes, d.returnType.HasIncomplete name ∨ ∃ p ∈ d.parameters, p.type.HasIncomplete name := by
  simp only [mem_incompleteNames, references_eq, List.mem_append, List.mem_map, List.mem_flatMap, List.mem_cons,
    CType.HasIncomplete]
  constructor
  · rintro ⟨t, ⟨d, hd, rfl⟩ | ⟨s, hs, f, hf, rfl⟩ | ⟨d, hd, rfl | ⟨p, hp, rfl⟩⟩, use⟩
    · exact .inl ⟨d, hd, use⟩
    · exact .inr (.inl ⟨s, hs, f, hf, use⟩)
    · exact .inr (.inr ⟨d, hd, .inl use⟩)
    · exact .inr (.inr ⟨d, hd, .inr ⟨p, hp, use⟩⟩)
  · rintro (⟨d, hd, use⟩ | ⟨s, hs, f, hf, use⟩ | ⟨d, hd, use | ⟨p, hp, use⟩⟩)
    · exact ⟨d.type, .inl ⟨d, hd, rfl⟩, use⟩
    · exact ⟨f.type, .inr (.inl ⟨s, hs, f, hf, rfl⟩), use⟩
    · exact ⟨d.returnType, .inr (.inr ⟨d, hd, .inl rfl⟩), use⟩
    · exact ⟨p.type, .inr (.inr ⟨d, hd, .inr ⟨p, hp, rfl⟩⟩), use⟩

/-- The lines of every declaration stand together in those of the header. -/
theorem code_contiguous {guard : String} {i : Item} (hi : i ∈ h.items) : i.code <:+: h.code guard := by
  have line {l : Line} (hl : l ∈ h.code guard) : [l] <:+: h.code guard := by
    obtain ⟨before, after, split⟩ := List.append_of_mem hl
    exact ⟨before, after, by rw [split, List.append_assoc, List.singleton_append]⟩
  have block {α : Type} {f : α → List Line} {xs : List α} {x : α} (hx : x ∈ xs) (nonempty : f x ≠ []) :
      f x <:+: xs.flatMap fun x => closedCode (f x) := by
    have part : closedCode (f x) = f x ++ [.plain ""] := if_neg (by simpa using nonempty)
    exact (part ▸ List.prefix_append _ _).isInfix.trans (List.infix_of_mem_flatten (List.mem_map_of_mem hx))
  simp only [items, List.mem_append, List.mem_map] at hi
  rcases hi with ((⟨d, hd, rfl⟩ | ⟨d, hd, rfl⟩) | ⟨d, hd, rfl⟩) | ⟨d, hd, rfl⟩
  · exact line (typedef_mem_code.2 hd)
  · have part := block hd (f := EnumDefinition.code) (by simp [EnumDefinition.code])
    exact part.trans ((List.infix_append _ _ _).trans ((List.prefix_append _ _).trans (List.prefix_append _ _)).isInfix)
  · have part := block hd (f := StructDefinition.code) (by simp [StructDefinition.code])
    exact part.trans ((List.infix_append _ _ _).trans (List.prefix_append _ _).isInfix)
  · exact line (prototype_mem_code.2 hd)

section Introduces

variable {seen : List Line} {guard : String}

theorem introduces_typedef {d : Typedef} (hd : d ∈ h.typedefs)
    (advance : ∀ n, n ∈ h.incompleteNames ∨ n ∈ h.earlyStructs → .forward n ∈ seen) :
    h.Introduces seen d.type := by
  constructor
  · intro incomplete
    exact advance _ (.inl (mem_incompleteNames.2 ⟨_, typedef_mem_references hd, incomplete, rfl⟩))
  · intro struct
    exact .inl (advance _ (.inr (early_of_typedef hd struct)))

theorem introduces_field {first rest : List StructDefinition} {s : StructDefinition} {f : Slot}
    (split : h.structs = first ++ s :: rest) (hf : f ∈ s.fields)
    (advance : ∀ n, n ∈ h.incompleteNames ∨ n ∈ h.earlyStructs → .forward n ∈ seen)
    (defined : ∀ r ∈ first, .structClosing r ∈ seen) : h.Introduces seen f.type := by
  have hs : s ∈ h.structs := by simp [split]
  constructor
  · intro incomplete
    exact advance _ (.inl (mem_incompleteNames.2 ⟨_, field_mem_references hs hf, incomplete, rfl⟩))
  · intro struct
    rcases earlier_or_early_of_field split hf struct with earlier | early
    · obtain ⟨r, hr, same⟩ := List.mem_map.1 earlier
      exact .inr ⟨r, split ▸ List.mem_append_left _ hr, same, defined r hr⟩
    · exact .inl (advance _ (.inr early))

theorem introduces_prototype {d : Prototype} {t : CType} (hd : d ∈ h.prototypes)
    (ht : t ∈ (Line.prototype d).types)
    (advance : ∀ n, n ∈ h.incompleteNames ∨ n ∈ h.earlyStructs → .forward n ∈ seen)
    (defined : ∀ r ∈ h.structs, .structClosing r ∈ seen) : h.Introduces seen t := by
  constructor
  · intro incomplete
    exact advance _ (.inl (mem_incompleteNames.2 ⟨t, prototype_mem_references hd ht, incomplete, rfl⟩))
  · intro struct
    obtain ⟨r, hr, same⟩ := List.mem_map.1 struct
    exact .inr ⟨r, hr, same, defined r hr⟩

/-- Section by section, the types that a line uses have been introduced. -/
theorem holds_introduces (h : Header) (guard : String) :
    Holds (fun seen line => ∀ t ∈ line.types, h.Introduces seen t) [] (h.code guard) := by
  have silent {seen lines : List Line} (no : ∀ l ∈ lines, l.types = []) :
      Holds (fun seen line => ∀ t ∈ line.types, h.Introduces seen t) seen lines :=
    holds_of_forall fun l hl _ => by simp [no l hl]
  have plain : ∀ seen text, ∀ t ∈ Line.types (.plain text), h.Introduces seen t := by simp [Line.types]
  simp only [code, typedefCode, holds_append, List.nil_append]
  refine ⟨⟨⟨⟨⟨⟨?_, ?_⟩, ?_⟩, ?_⟩, ?_⟩, ?_⟩, ?_⟩
  · exact silent (by simp [Line.types])
  · exact holds_closedCode (plain · "") (silent (by simp [Line.types]))
  · refine holds_closedCode (plain · "") (holds_append.2 ⟨?_, holds_map fun first rest d split t ht => ?_⟩)
    · exact silent (by simp [Line.types, or_imp, forall_and])
    · cases List.mem_singleton.1 ht
      exact introduces_typedef (by simp [split]) (by simp)
  · refine holds_flatMap fun first rest d _ => holds_closedCode (plain · "") (silent ?_)
    simp [EnumDefinition.code, Line.types, or_imp, forall_and]
  · refine holds_flatMap fun first rest s split => holds_closedCode (plain · "") ?_
    refine s.holds_code plain (fun _ => by simp [Line.types]) fun before after f fields t ht => ?_
    cases List.mem_singleton.1 ht
    exact introduces_field split (by simp [fields]) (by simp) (by simp)
  · refine holds_closedCode (plain · "") (holds_map fun first rest d split t ht => ?_)
    exact introduces_prototype (by simp [split]) ht (by simp) (by simp)
  · exact silent (by simp [Line.types])

/-- In front of every declaration the types that it uses have been introduced. -/
theorem introduces_references {before after : List Line} {i : Item}
    (split : h.code guard = before ++ i.code ++ after) {t : CType} (ht : t ∈ i.references) :
    h.Introduces before t := by
  have introduced {l : Line} (front back : List Line) (split : h.code guard = front ++ l :: back) :
      ∀ t ∈ l.types, h.Introduces front t := by
    simpa using (h.holds_introduces guard).of_split split
  cases i with
  | typedef d => exact introduced before after (l := .typedef d) (by simpa [Item.code] using split) t ht
  | enumeration d => exact absurd ht List.not_mem_nil
  | struct s =>
    -- what stands in front of a field within its own struct introduces nothing
    obtain ⟨f, hf, rfl⟩ := List.mem_map.1 ht
    obtain ⟨first, rest, fields⟩ := List.append_of_mem hf
    have field := introduced
      (before ++ .plain ("typedef struct " ++ s.name ++ " \x7b") :: first.map (.field s))
      (rest.map (.field s) ++ .structClosing s :: after)
      (by simpa [Item.code, StructDefinition.code, fields] using split) f.type (List.mem_singleton.2 rfl)
    simpa [Introduces] using field
  | prototype d => exact introduced before after (l := .prototype d) (by simpa [Item.code] using split) t ht

end Introduces

/-- Declared in advance are exactly the incomplete types that a header uses, and its structs that a typedef, a field
of their own or a field of an earlier struct uses, each once and in order of first use. So the text of a header
introduces every incomplete type and every struct of its own in front of the declarations that use it. -/
theorem forward_declarations_exact (h : Header) (guard : String) :
    ((∀ name, name ∈ h.earlyStructs ↔
        ∃ (k : Nat) (r : StructDefinition), h.structs[k]? = some r ∧ r.name = name ∧
          ((∃ d ∈ h.typedefs, d.type.baseType.name = name) ∨
            ∃ (i : Nat) (s : StructDefinition), i ≤ k ∧ h.structs[i]? = some s ∧
              ∃ f ∈ s.fields, f.type.baseType.name = name)) ∧
      h.earlyStructs.Nodup ∧ h.earlyStructs.Pairwise fun a b => h.baseNames.idxOf a < h.baseNames.idxOf b) ∧
    ((∀ name, name ∈ h.incompleteNames ↔
        (∃ d ∈ h.typedefs, d.type.HasIncomplete name) ∨
          (∃ s ∈ h.structs, ∃ f ∈ s.fields, f.type.HasIncomplete name) ∨
            ∃ d ∈ h.prototypes, d.returnType.HasIncomplete name ∨ ∃ p ∈ d.parameters, p.type.HasIncomplete name) ∧
      h.incompleteNames.Nodup ∧
      h.incompleteNames.Pairwise fun a b => h.incompleteUses.idxOf a < h.incompleteUses.idxOf b) ∧
    h.text guard = "\n".intercalate ((h.code guard).map Line.text) ++ "\n" ∧
    (∀ name, .forward name ∈ h.code guard ↔ name ∈ h.incompleteNames ∨ name ∈ h.earlyStructs) ∧
    (∀ i ∈ h.items, i.code <:+: h.code guard ∧ i.code.map Line.text = i.lines) ∧
    ∀ (before after : List Line) (i : Item), h.code guard = before ++ i.code ++ after →
      ∀ t ∈ i.references, h.Introduces before t := by
  refine ⟨⟨fun name => mem_earlyStructs_iff, nodup_eraseDups _, h.earlyStructs_ordered⟩,
    ⟨fun name => mem_incompleteNames_iff, nodup_eraseDups _, eraseDups_ordered _⟩, ?_,
    fun name => forward_mem_code, fun i hi => ⟨code_contiguous hi, i.code_text⟩, ?_⟩
  · rw [Header.text, Header.code_text]
  · intro before after i split t ht
    exact introduces_references split ht

end Header

end CInterface
