import CInterface.FrontEnd
import CInterface.Proofs.Except
import CInterface.Proofs.Keys
import CInterface.Writer

/-!
# Registries under calls

A registry is built by calls, each of which asks for the registration of an item. Whatever is asked for, in whatever
order, the names stay distinct, the items stand in the order in which they were granted, and the default is the item
that asked for it last, or else the first one. A call that is refused leaves no trace.
-/

namespace CInterface.Registry

variable {α : Type}

/-- A call that asks for the registration of an item, perhaps as the default. -/
structure Call (α : Type) where
  entry : Entry α
  asDefault : Bool
  deriving DecidableEq, Repr

/-- How a call ends, and the registry after it. -/
def call (r : Registry α) (c : Call α) : Except RegistryError Unit × Registry α :=
  match r.register c.entry c.asDefault with
  | .ok next => (.ok (), next)
  | .error e => (.error e, r)

/-- The registry after calls, one after the other. -/
def after (r : Registry α) : List (Call α) → Registry α
  | [] => r
  | c :: rest => after (r.call c).2 rest

/-- The calls that are granted, one after the other. -/
def granted (r : Registry α) : List (Call α) → List (Call α)
  | [] => []
  | c :: rest =>
    match (r.call c).1 with
    | .ok () => c :: granted (r.call c).2 rest
    | .error _ => granted (r.call c).2 rest

variable {r : Registry α} {c : Call α} {name : String}

theorem mem_names : name ∈ r.names ↔ ∃ e ∈ r.entries, e.name = name := List.mem_map

theorem call_refused (h : c.entry.name ∈ r.names) : r.call c = (.error (.registered c.entry.name), r) := by
  rw [call, register, if_pos h]

theorem call_granted (h : c.entry.name ∉ r.names) :
    r.call c = (.ok (),
      ⟨r.entries ++ [c.entry], if c.asDefault ∨ r.default = none then some c.entry.name else r.default⟩) := by
  rw [call, register, if_neg h]

/-- A call fails just if the name is taken, and then it changes nothing. -/
theorem call_error_iff (e : RegistryError) :
    (r.call c).1 = .error e ↔ c.entry.name ∈ r.names ∧ e = .registered c.entry.name := by
  by_cases taken : c.entry.name ∈ r.names
  · simp [call_refused taken, taken, eq_comm]
  · simp [call_granted taken, taken]

theorem call_ok_iff : (r.call c).1 = .ok () ↔ c.entry.name ∉ r.names := by
  by_cases taken : c.entry.name ∈ r.names
  · simp [call_refused taken, taken]
  · simp [call_granted taken, taken]

theorem call_of_error {e : RegistryError} (h : (r.call c).1 = .error e) : (r.call c).2 = r := by
  rw [call_refused ((call_error_iff e).1 h).1]

theorem mem_names_call : name ∈ (r.call c).2.names ↔ name ∈ r.names ∨ name = c.entry.name := by
  by_cases taken : c.entry.name ∈ r.names
  · rw [call_refused taken]
    exact ⟨.inl, fun h => h.elim id fun same => same ▸ taken⟩
  · rw [call_granted taken]
    simp [names]

/-- A name is registered just if it was, or if a call has asked for it. -/
theorem mem_names_after (calls : List (Call α)) :
    name ∈ (r.after calls).names ↔ name ∈ r.names ∨ ∃ c ∈ calls, c.entry.name = name := by
  induction calls generalizing r with
  | nil => simp [after]
  | cons c rest ih => rw [after, ih, mem_names_call, List.exists_mem_cons_iff, or_assoc, @eq_comm _ c.entry.name]

/-- Calls for items of new and distinct names, none of which asks to be the default, add these items. -/
theorem after_fresh (es : List (Entry α)) (fresh : (r.names ++ es.map (·.name)).Nodup) :
    r.after (es.map (⟨·, false⟩)) = ⟨r.entries ++ es, r.default.or (es.head?.map (·.name))⟩ := by
  induction es generalizing r with
  | nil => simp [after]
  | cons e rest ih =>
    rw [List.map_cons, List.nodup_middle, List.nodup_cons, List.mem_append, not_or] at fresh
    obtain ⟨⟨free, -⟩, -⟩ := id fresh
    have others : ((r.names ++ [e.name]) ++ rest.map (·.name)).Nodup := by
      rw [List.append_assoc, List.singleton_append, List.nodup_middle, List.nodup_cons, List.mem_append, not_or]
      exact fresh
    rw [List.map_cons, after, call_granted free, ih (by simpa [names] using others)]
    cases r.default <;> simp

theorem ofEntries_eq_after (es : List (Entry α)) (distinct : (es.map (·.name)).Nodup) :
    ofEntries es = empty.after (es.map (⟨·, false⟩)) := by
  rw [after_fresh es (by simpa [names, empty] using distinct)]
  simp [ofEntries, empty]

/-- The registries of writers and of front ends come about by calls. -/
example : (∃ calls, Writer.registry = empty.after calls) ∧ ∃ calls, FrontEnd.registry = empty.after calls :=
  ⟨⟨_, ofEntries_eq_after _ (by decide)⟩, ⟨_, ofEntries_eq_after _ (by decide)⟩⟩

/-- The default of items that were granted one after the other: the last that asked to be it, or else the first. -/
def defaultOf (calls : List (Call α)) : Option String :=
  ((calls.filter (·.asDefault)).getLast?.or calls.head?).map (·.entry.name)

theorem defaultOf_append (calls : List (Call α)) (c : Call α) :
    defaultOf (calls ++ [c]) = if c.asDefault ∨ defaultOf calls = none then some c.entry.name else defaultOf calls := by
  cases asked : c.asDefault with
  | true => simp [defaultOf, asked]
  | false =>
    cases calls with
    | nil => simp [defaultOf, asked]
    | cons first rest =>
      have known : defaultOf (first :: rest) ≠ none := by simp [defaultOf]
      simp only [Bool.false_eq_true, known, or_self, if_false]
      simp [defaultOf, asked]

/-- What holds of a registry after calls of which some were granted. -/
structure Holds (r : Registry α) (calls : List (Call α)) : Prop where
  entries : r.entries = calls.map (·.entry)
  default : r.default = defaultOf calls
  distinct : r.names.Nodup

theorem holds_empty : Holds (empty : Registry α) [] where
  entries := rfl
  default := rfl
  distinct := List.nodup_nil

theorem Holds.call {calls : List (Call α)} (h : Holds r calls) (free : c.entry.name ∉ r.names) :
    Holds (r.call c).2 (calls ++ [c]) := by
  rw [call_granted free]
  refine ⟨?_, ?_, ?_⟩
  · simp [h.entries]
  · simp only [h.default, defaultOf_append]
  · rw [names, List.map_append, List.nodup_append']
    exact ⟨h.distinct, List.nodup_singleton _, by simpa [names] using free⟩

theorem Holds.after {before : List (Call α)} (h : Holds r before) (calls : List (Call α)) :
    Holds (r.after calls) (before ++ r.granted calls) := by
  induction calls generalizing r before with
  | nil => simpa [Registry.after, granted] using h
  | cons c rest ih =>
    rw [Registry.after, granted]
    by_cases taken : c.entry.name ∈ r.names
    · rw [call_refused taken]
      exact ih h
    · have next := ih (h.call taken)
      rw [List.append_assoc] at next
      rw [call_granted taken] at next ⊢
      exact next

theorem Holds.default_mem {calls : List (Call α)} (h : Holds r calls) (is : r.default = some name) :
    name ∈ r.names := by
  rw [h.default, defaultOf, Option.map_eq_some_iff] at is
  obtain ⟨c, chosen, rfl⟩ := is
  have mem : c ∈ calls := by
    rcases Option.or_eq_some_iff.1 chosen with last | ⟨-, first⟩
    · exact (List.mem_filter.1 (List.mem_of_getLast? last)).1
    · exact List.mem_of_head? first
  rw [names, h.entries, List.map_map]
  exact List.mem_map_of_mem mem

theorem Holds.default_eq_none {calls : List (Call α)} (h : Holds r calls) : r.default = none ↔ r.names = [] := by
  rw [h.default, names, h.entries, List.map_map, List.map_eq_nil_iff]
  cases calls with
  | nil => simp [defaultOf]
  | cons first rest => simp [defaultOf]

/-- A look-up by name leads to the item of that name. -/
theorem get_ok_iff {e : Entry α} (distinct : r.names.Nodup) :
    r.get (some name) = .ok e ↔ e ∈ r.entries ∧ e.name = name := by
  rw [get, lookup, ← find?_key_iff distinct]
  split
  · next found => simp [found]
  · next absent => simp [absent]

theorem yields_get (distinct : r.names.Nodup) : Yields (r.get (some name)) ↔ name ∈ r.names := by
  rw [Yields, mem_names]
  exact exists_congr fun e => get_ok_iff distinct

theorem info_names (r : Registry α) : r.info.map (·.name) = r.names := by
  rw [info, List.map_map]
  rfl

/-- Just one item is told to be the default, and it is the default. -/
theorem Holds.info_default {calls : List (Call α)} (h : Holds r calls) :
    (r.info.filter (·.isDefault)).map (·.name) = r.default.toList := by
  rw [info, List.filter_map, List.map_map]
  cases is : r.default with
  | none =>
    have none : r.entries = [] := by simpa [names] using h.default_eq_none.1 is
    simp [none]
  | some name =>
    obtain ⟨e, mem, rfl⟩ := mem_names.1 (h.default_mem is)
    have own (other : Entry α) : decide (some e.name = some other.name) = (other.name == e.name) := by
      rw [Bool.eq_iff_iff, decide_eq_true_iff, beq_iff_eq, Option.some.injEq, eq_comm]
    simp only [Function.comp_def, own, filter_key h.distinct mem]
    rfl

/-- After any calls from the empty registry on: a call fails just if its name is taken, and changes nothing then; the
names are distinct and stand in the order of the calls that were granted; there is a default if there is anything, the
item that asked for it last or else the first, and it is registered; without a name, the default is looked up, and a name
is found just if it is registered; and all items are told of in their order, just one of them as the default. -/
theorem registry_after_calls (calls : List (Call α)) :
    let r := (empty : Registry α).after calls
    let kept := (empty : Registry α).granted calls
    (∀ c, ((r.call c).1 ≠ .ok () ↔ c.entry.name ∈ r.names) ∧
      ∀ e, (r.call c).1 = .error e → e = .registered c.entry.name ∧ (r.call c).2 = r) ∧
    (∀ name, name ∈ r.names ↔ ∃ c ∈ calls, c.entry.name = name) ∧
    r.names.Nodup ∧ r.entries = kept.map (·.entry) ∧
    (r.default = none ↔ r.names = []) ∧ r.default = defaultOf kept ∧
    (∀ name, r.default = some name → name ∈ r.names) ∧
    r.get none = (r.default? >>= fun name => r.get (some name)) ∧
    (∀ name, Yields (r.get (some name)) ↔ name ∈ r.names) ∧
    (∀ name e, r.get (some name) = .ok e ↔ e ∈ r.entries ∧ e.name = name) ∧
    r.info.map (·.name) = r.names ∧
    (r.info.filter (·.isDefault)).map (·.name) = r.default.toList := by
  intro r kept
  have holds : Holds r kept := holds_empty.after calls
  refine ⟨fun c => ⟨call_ok_iff.not_left, fun e fails => ?_⟩, fun name => ?_, holds.distinct, holds.entries,
    holds.default_eq_none, holds.default, fun name => holds.default_mem, rfl, fun name => yields_get holds.distinct,
    fun name e => get_ok_iff holds.distinct, info_names r, holds.info_default⟩
  · exact ⟨((call_error_iff e).1 fails).2, call_of_error fails⟩
  · rw [mem_names_after]
    simp [names, empty]

end CInterface.Registry
