import CInterface.Description.Reader
import CInterface.Proofs.Assembly.Accounting
import CInterface.Proofs.Header.ForwardDeclarations
import CInterface.Proofs.Selection.Parts

/-!
# The ordinary names of a header

Typedefs, enumerations, structs, functions and the incomplete types that a header declares in advance share one
namespace of C. The names of the first four are distinct by selection. Incomplete is what a type comes to that is
neither exported nor an alias, so that no incomplete type has the name of a type that the header defines. It can have
the symbol of a function: functions are no types, and what a type means does not depend on them.
-/

namespace CInterface

open Source

/-- A string alone never stands for a name that is the spelling of a primitive. -/
theorem Description.ofSpelling?_shorthand {s name : String} {args : List TypeExpr}
    (h : shorthand s = .named name args) : Primitive.ofSpelling? name = none := by
  rw [shorthand] at h
  split at h
  next => cases h
  next none =>
    cases h
    exact none

namespace Scope

variable {scope : Scope} {visited : List String} {name : String} {t : TypeExpr} {c : CType}

/-- A name that the scope does not know. -/
structure Unknown (scope : Scope) (name : String) : Prop where
  hidden : name ∉ scope.exported
  target : scope.target? name = none

/-- A type that comes to an incomplete one mentions its name, of which nothing is known. -/
theorem mentions_of_incomplete (h : scope.resolve visited t = .ok c) (incomplete : c.baseType.isIncomplete = true) :
    scope.Mentions t c.baseType.name ∧ scope.Unknown c.baseType.name := by
  induction visited, t using resolve.induct scope generalizing c with
  | case1 visited p =>
    rw [resolve_primitive] at h
    cases h
    cases incomplete
  | case2 visited isMutable t ih =>
    rw [resolve_pointer, except_map_ok] at h
    obtain ⟨a, ha, rfl⟩ := h
    rw [isIncomplete_pointer] at incomplete
    rw [name_pointer]
    exact (ih ha incomplete).imp_left (.pointer isMutable)
  | case3 visited name args hv =>
    rw [resolve_visited args hv] at h
    cases h
  | case4 visited name args hv t ht ih =>
    rw [resolve_alias args hv ht, except_map_ok] at h
    obtain ⟨a, ha, rfl⟩ := h
    by_cases he : name ∈ scope.exported
    · rw [if_pos he] at incomplete
      cases incomplete
    · rw [if_neg he] at incomplete ⊢
      exact (ih ha incomplete).imp_left (.inlined args he ht)
  | case5 visited name args hv ht =>
    rw [resolve_other args hv ht] at h
    cases h
    exact ⟨.name name args, by simpa [CType.baseType] using incomplete, ht⟩

/-- A type that mentions a name of which nothing is known comes to an incomplete one of that name. -/
theorem Mentions.incomplete (m : scope.Mentions t name) (unknown : scope.Unknown name)
    (h : scope.resolve visited t = .ok c) : c.baseType.isIncomplete = true ∧ c.baseType.name = name := by
  induction m generalizing visited c with
  | name name args =>
    have hv := not_visited h
    rw [resolve_other args hv unknown.target] at h
    cases h
    exact ⟨by simp [CType.baseType, unknown.hidden], rfl⟩
  | pointer isMutable _ ih =>
    rw [resolve_pointer, except_map_ok] at h
    obtain ⟨a, ha, rfl⟩ := h
    rw [isIncomplete_pointer, name_pointer]
    exact ih unknown ha
  | @inlined name n t args hx ht _ ih =>
    have hv := not_visited h
    rw [resolve_alias args hv ht, except_map_ok] at h
    obtain ⟨a, ha, rfl⟩ := h
    rw [if_neg hx]
    exact ih unknown ha

end Scope

namespace Assembly

variable {ds : List Declaration} {name target : String}

/-- A name that is neither that of an accepted type nor that of an alias that can be followed. -/
structure Unknown (ds : List Declaration) (name : String) : Prop where
  types : ∀ d ∈ (Selection.of ds).accepted, d.kind ≠ .function → d.name ≠ name
  aliases : ∀ a, .alias a ∈ ds → a.isSupported = true → a.name ≠ name

/-- A name that a type of an emitted declaration mentions, under pointers and through aliases that are not exported. -/
def Mentioned (ds : List Declaration) (name : String) : Prop :=
  ∃ d ∈ emittedSources ds, ∃ t ∈ d.types, (scope ds).Mentions t name

theorem unknown_iff : Unknown ds name ↔ (scope ds).Unknown name := by
  have hidden : name ∉ (scope ds).exported ↔ ∀ d ∈ (Selection.of ds).accepted, d.kind ≠ .function → d.name ≠ name := by
    refine (not_congr Selection.mem_exportedNames).trans ?_
    simp only [not_exists, not_and, ne_eq]
  have target : (scope ds).target? name = none ↔ ∀ a, .alias a ∈ ds → a.isSupported = true → a.name ≠ name := by
    simp only [scope, Scope.target?_ofSelection, Option.map_eq_none_iff, List.find?_eq_none, mem_supportedAliases,
      beq_iff_eq, and_imp, ne_eq]
  exact ⟨fun h => ⟨hidden.2 h.types, target.2 h.aliases⟩, fun h => ⟨hidden.1 h.hidden, target.1 h.target⟩⟩

theorem mem_emittedSources {d : Declaration} : d ∈ emittedSources ds ↔ ∃ r ∈ emitted ds, r.source = d := by
  rw [(emittedSources_perm ds).mem_iff, List.mem_map]

/-- Declared in advance as incomplete is what is mentioned without being known. -/
theorem mem_incompleteNames :
    name ∈ (of ds target).header.incompleteNames ↔ Unknown ds name ∧ Mentioned ds name := by
  simp only [Header.mem_incompleteNames, mem_references, unknown_iff, Mentioned, mem_emittedSources]
  constructor
  · rintro ⟨c, ⟨r, hr, hc⟩, incomplete, rfl⟩
    obtain ⟨t, ht, resolves⟩ := forall₂_mem_right (Scope.resolveDeclaration_ok (emitted_resolves hr).2).2.2 hc
    obtain ⟨mentions, unknown⟩ := Scope.mentions_of_incomplete resolves incomplete
    exact ⟨unknown, r.source, ⟨r, hr, rfl⟩, t, ht, mentions⟩
  · rintro ⟨unknown, d, ⟨r, hr, rfl⟩, t, ht, mentions⟩
    obtain ⟨c, hc, resolves⟩ := forall₂_mem_left (Scope.resolveDeclaration_ok (emitted_resolves hr).2).2.2 ht
    obtain ⟨incomplete, same⟩ := mentions.incomplete unknown resolves
    exact ⟨c, ⟨r, hr, hc⟩, incomplete, same⟩

theorem incompleteNames_disjoint_typeNames (ds : List Declaration) (target : String) :
    (of ds target).header.incompleteNames.Disjoint (of ds target).header.typeNames := by
  intro name incomplete type
  obtain ⟨r, hr, kind, same⟩ := mem_header_typeNames.1 type
  exact (mem_incompleteNames.1 incomplete).1.types r.source (emitted_resolves hr).1 kind same

/-- The names of a header are those of its types and the symbols of its functions. -/
theorem mem_header_names : name ∈ (of ds target).header.items.map Item.name ↔
    name ∈ (of ds target).header.typeNames ∨ ∃ f, .function f ∈ emittedSources ds ∧ f.symbol = name := by
  have named {r : Resolved} (hr : r ∈ emitted ds) : r.item.name = r.source.headerName :=
    (Scope.resolveDeclaration_ok (emitted_resolves hr).2).2.1
  simp only [List.mem_map, mem_header_items, mem_header_typeNames, mem_emittedSources]
  constructor
  · rintro ⟨_, ⟨r, hr, rfl⟩, rfl⟩
    rw [named hr]
    by_cases kind : r.source.kind = .function
    · obtain ⟨f, source⟩ : ∃ f, r.source = .function f := by
        cases source : r.source <;> simp_all [Declaration.kind]
      exact .inr ⟨f, ⟨r, hr, source⟩, by rw [source, Declaration.headerName]⟩
    · exact .inl ⟨r, hr, kind, (Declaration.headerName_eq_name kind).symm⟩
  · rintro (⟨r, hr, kind, rfl⟩ | ⟨f, ⟨r, hr, source⟩, rfl⟩)
    · exact ⟨r.item, ⟨r, hr, rfl⟩, (named hr).trans (Declaration.headerName_eq_name kind)⟩
    · exact ⟨r.item, ⟨r, hr, rfl⟩, by rw [named hr, source, Declaration.headerName]⟩

/-- The ordinary names of a header are distinct up to one kind of clash: the symbol of an emitted function may be
mentioned as a type of which nothing is known. Declared in advance is exactly what is so mentioned, and a spelling of
a primitive is only mentioned where a description names a type by it in full. -/
theorem ordinary_names_distinct_iff (ds : List Declaration) (target : String) :
    let h := (of ds target).header
    (h.incompleteNames ++ h.typeNames).Nodup ∧
      (h.items.map Item.name).Nodup ∧
      ((h.incompleteNames ++ h.items.map Item.name).Nodup ↔
        ∀ f, .function f ∈ emittedSources ds → Unknown ds f.symbol → ¬ Mentioned ds f.symbol) ∧
      (∀ n, n ∈ h.incompleteNames ↔ Unknown ds n ∧ Mentioned ds n) ∧
      ∀ s n args, Description.shorthand s = .named n args → Primitive.ofSpelling? n = none := by
  intro h
  have advance : h.incompleteNames.Nodup := nodup_eraseDups _
  have disjoint : h.incompleteNames.Disjoint h.typeNames := incompleteNames_disjoint_typeNames ds target
  have names : (h.items.map Item.name).Nodup := header_names_nodup ds target
  refine ⟨List.nodup_append'.2 ⟨advance, header_typeNames_nodup ds target, disjoint⟩, names, ?_,
    fun n => mem_incompleteNames, fun s n args => Description.ofSpelling?_shorthand⟩
  rw [List.nodup_append']
  constructor
  · rintro ⟨-, -, apart⟩ f hf unknown mentioned
    have incomplete : f.symbol ∈ h.incompleteNames := mem_incompleteNames.2 ⟨unknown, mentioned⟩
    exact apart incomplete (mem_header_names.2 (.inr ⟨f, hf, rfl⟩))
  · intro clear
    refine ⟨advance, names, fun n incomplete mem => ?_⟩
    obtain type | ⟨f, hf, rfl⟩ := mem_header_names.1 mem
    · exact disjoint incomplete type
    · obtain ⟨unknown, mentioned⟩ := mem_incompleteNames.1 incomplete
      exact clear f hf unknown mentioned

/-- One meaning for each ordinary name: no name stands for two things, and what is declared in advance is neither
built in nor declared in the input. -/
structure OneMeaning (ds : List Declaration) (h : Header) : Prop where
  distinct : (h.incompleteNames ++ h.items.map Item.name).Nodup
  unspelled : ∀ n ∈ h.incompleteNames, Primitive.ofSpelling? n = none
  undeclared : ∀ n ∈ h.incompleteNames, n ∉ ds.map (·.name)

/-- A struct whose fields name two primitives in full, a function that takes its own symbol for a type, and a struct
that is not exported. -/
def harbour : List Declaration :=
  [.struct ⟨"Berth", [⟨"length", .named "i32" []⟩, ⟨"depth", .named "int32_t" []⟩], true, true, none⟩,
    .function ⟨"moor", [⟨"m", .pointer true (.named "moor" [])⟩, ⟨"c", .pointer true (.named "Crew" [])⟩],
      .primitive .void, true, true, true, none, none⟩,
    .struct ⟨"Crew", [⟨"size", .primitive .u8⟩], false, false, none⟩]

/-- None of the exported names of the harbour is the spelling of a primitive. Still all of its incomplete names have
another meaning: two are built in, one is a function and one is declared. -/
theorem not_oneMeaning_harbour :
    (∀ d ∈ (Selection.of harbour).accepted, Primitive.ofSpelling? d.headerName = none) ∧
      (of harbour "lib.h").header.incompleteNames = ["i32", "int32_t", "moor", "Crew"] ∧
      ¬ ((of harbour "lib.h").header.incompleteNames ++ (of harbour "lib.h").header.items.map Item.name).Nodup ∧
      ¬ OneMeaning harbour (of harbour "lib.h").header := by
  have exported : (Selection.of harbour).accepted.map (Primitive.ofSpelling? ·.headerName) = [none, none] := by
    decide +kernel
  have incomplete : (of harbour "lib.h").header.incompleteNames = ["i32", "int32_t", "moor", "Crew"] := by
    decide +kernel
  have names : (of harbour "lib.h").header.items.map Item.name = ["Berth", "moor"] := by decide +kernel
  refine ⟨fun d hd => ?_, incomplete, ?_, fun h => ?_⟩
  · have mem := List.mem_map_of_mem (f := fun d : Declaration => Primitive.ofSpelling? d.headerName) hd
    rw [exported] at mem
    simpa using mem
  · rw [incomplete, names]
    decide
  · have spelled := h.unspelled "i32" (incomplete ▸ List.mem_cons_self)
    exact absurd spelled (by decide)

end Assembly

end CInterface
