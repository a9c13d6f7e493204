import CInterface.Header.Forward
import CInterface.Header.Include
import CInterface.Proofs.Assembly.Reports
import CInterface.Proofs.Header.Sections

/-!
# Headers are closed

Every type that a header uses is known: it is built in, comes from an included support header, is declared in
advance or is defined once by the header itself. The invariant behind it is that nothing emitted uses the name
under which something left out is recorded.
-/

namespace CInterface.Assembly

open Source

variable {ds : List Declaration} {target name : String}

theorem mem_header_items {item : Item} :
    item ∈ (of ds target).header.items ↔ ∃ r ∈ emitted ds, r.item = item := by
  rw [header_of, Header.mem_ofItems_items, List.mem_map]

theorem emitted_resolves {r : Resolved} (h : r ∈ emitted ds) :
    r.source ∈ (Selection.of ds).accepted ∧ (scope ds).resolveDeclaration r.source = .ok r.item :=
  mem_candidates.1 (mem_emitted.1 h).1

theorem mem_header_typeNames :
    name ∈ (of ds target).header.typeNames ↔
      ∃ r ∈ emitted ds, r.source.kind ≠ .function ∧ r.source.name = name := by
  rw [header_of, Header.mem_typeNames_ofItems]
  constructor
  · rintro ⟨i, hi, hk, rfl⟩
    obtain ⟨r, hr, rfl⟩ := List.mem_map.1 hi
    obtain ⟨kind, same, -⟩ := Scope.resolveDeclaration_ok (emitted_resolves hr).2
    rw [kind] at hk
    exact ⟨r, hr, hk, (same.trans (Declaration.headerName_eq_name hk)).symm⟩
  · rintro ⟨r, hr, hk, rfl⟩
    obtain ⟨kind, same, -⟩ := Scope.resolveDeclaration_ok (emitted_resolves hr).2
    exact ⟨r.item, List.mem_map.2 ⟨r, hr, rfl⟩, kind ▸ hk,
      same.trans (Declaration.headerName_eq_name hk)⟩

theorem header_names_nodup (ds : List Declaration) (target : String) :
    ((of ds target).header.items.map Item.name).Nodup := by
  have names : (emitted ds).map (·.item.name) = ((emitted ds).map (·.source)).map (·.headerName) := by
    rw [List.map_map]
    exact List.map_congr_left fun r hr => (Scope.resolveDeclaration_ok (emitted_resolves hr).2).2.1
  have nodup := ((reports_perm ds).map (·.headerName)).nodup_iff.2 (Selection.inSections_headerName_nodup ds)
  rw [List.map_append, List.nodup_append', ← names] at nodup
  have perm := (Header.ofItems_items_perm target ((emitted ds).map (·.item))).map Item.name
  rw [header_of, perm.nodup_iff, List.map_map]
  exact nodup.2.1

theorem header_typeNames_nodup (ds : List Declaration) (target : String) :
    (of ds target).header.typeNames.Nodup :=
  (header_names_nodup ds target).sublist (Header.typeNames_prefix _).sublist

/-- An exported name that is used is defined by the header. -/
theorem exported_emitted {r : Resolved} (hr : r ∈ emitted ds) {t : CType} (ht : t ∈ r.item.references)
    (h : t.baseType.name ∈ (scope ds).exported) : t.baseType.name ∈ (of ds target).header.typeNames := by
  obtain ⟨e, he, hk, same⟩ := Selection.mem_exportedNames.1 h
  have kept : ¬ LeftOut ds e := by
    intro hl
    refine emitted_unused hr hl ⟨t, ht, ?_⟩
    rw [recordedName_type hk, same]
  obtain ⟨s, hs, rfl⟩ := List.mem_map.1 (mem_emitted_source.2 ⟨he, kept⟩)
  exact mem_header_typeNames.2 ⟨s, hs, hk, same⟩

theorem exported_of_typeNames (h : name ∈ (of ds target).header.typeNames) : name ∈ (scope ds).exported := by
  obtain ⟨r, hr, hk, rfl⟩ := mem_header_typeNames.1 h
  exact Selection.mem_exportedNames.2 ⟨r.source, (emitted_resolves hr).1, hk, rfl⟩

theorem mem_references {t : CType} :
    t ∈ (of ds target).header.references ↔ ∃ r ∈ emitted ds, t ∈ r.item.references := by
  simp only [Header.references, List.mem_flatMap, mem_header_items]
  constructor
  · rintro ⟨_, ⟨r, hr, rfl⟩, ht⟩
    exact ⟨r, hr, ht⟩
  · rintro ⟨r, hr, ht⟩
    exact ⟨r.item, ⟨r, hr, rfl⟩, ht⟩

/-- What a type that is used in a header refers to. -/
inductive Known (h : Header) (b : BaseType) : Prop
  | primitive (p : Primitive) (hn : b.name = p.cName) (hc : b.isIncomplete = false)
  | incomplete (hn : b.name ∈ h.incompleteNames) (hc : b.isIncomplete = true)
  | defined (hn : b.name ∈ h.typeNames) (hc : b.isIncomplete = false)

theorem reference_known {t : CType} (h : t ∈ (of ds target).header.references) :
    Known (of ds target).header t.baseType := by
  obtain ⟨r, hr, ht⟩ := mem_references.1 h
  cases Scope.references_origin (emitted_resolves hr).2 ht with
  | primitive p hn hc => exact .primitive p hn hc
  | exported hn hc => exact .defined (exported_emitted hr ht hn) hc
  | unknown hn hc =>
    refine .incomplete ?_ hc
    rw [Header.incompleteNames, List.mem_eraseDups, List.mem_map]
    exact ⟨t, List.mem_filter.2 ⟨h, hc⟩, rfl⟩

theorem mem_includes {h : Header} {i : Include} : i ∈ h.includes ↔ ∃ t ∈ h.references, t.baseType.name ∈ i.names := by
  cases i <;> simp [Header.includes, Header.baseNames]

theorem primitive_supported {h : Header} {t : CType} (ht : t ∈ h.references) {p : Primitive}
    (hn : t.baseType.name = p.cName) :
    t.baseType.name ∈ ["void", "float", "double"] ∨ ∃ i ∈ h.includes, t.baseType.name ∈ i.names := by
  rw [hn]
  rcases p.cName_cases with hp | hp | hp | ⟨i, hp⟩
  · exact .inl (by simp [hp])
  · exact .inl (by simp [hp])
  · exact .inl (by simp [hp])
  · exact .inr ⟨i, mem_includes.2 ⟨t, ht, hn ▸ hp⟩, hp⟩

/-- A header is closed. Nothing that is emitted mentions, be it through aliases that are not exported, a type that
was left out, and support headers are included only where they are needed. -/
theorem header_closed (ds : List Declaration) (target : String) :
    let h := (of ds target).header
    (∀ item ∈ h.items, ∀ t ∈ item.references,
      t.baseType.name ∈ ["void", "float", "double"] ∨
        (∃ i ∈ h.includes, t.baseType.name ∈ i.names) ∨
        (t.baseType.isIncomplete = true ∧ t.baseType.name ∈ h.incompleteNames) ∨
        (t.baseType.isIncomplete = false ∧ h.typeNames.count t.baseType.name = 1)) ∧
      h = Header.ofItems target ((emitted ds).map (·.item)) ∧
      (∀ e ∈ (Selection.of ds).accepted, e ∉ (emitted ds).map (·.source) → e.kind ≠ .function →
        ∀ r ∈ emitted ds, ∀ t ∈ r.source.types, ¬ (scope ds).Mentions t e.name) ∧
      ∀ i ∈ h.includes, ∃ item ∈ h.items, ∃ t ∈ item.references, t.baseType.name ∈ i.names := by
  intro h
  refine ⟨?_, rfl, ?_, ?_⟩
  · intro item hi t ht
    have href : t ∈ h.references := List.mem_flatMap.2 ⟨item, hi, ht⟩
    cases reference_known href with
    | primitive p hn hc => exact (primitive_supported href hn).imp_right .inl
    | incomplete hn hc => exact .inr (.inr (.inl ⟨hc, hn⟩))
    | defined hn hc =>
      exact .inr (.inr (.inr ⟨hc, List.count_eq_one_of_mem (header_typeNames_nodup ds target) hn⟩))
  · intro e he hout hk r hr t ht mentions
    have left : LeftOut ds e := by
      by_contra hl
      exact hout (mem_emitted_source.2 ⟨he, hl⟩)
    obtain ⟨-, -, pairs⟩ := Scope.resolveDeclaration_ok (emitted_resolves hr).2
    obtain ⟨c, hc, resolves⟩ := forall₂_mem_left pairs ht
    have same := mentions.baseType_name (Selection.mem_exportedNames.2 ⟨e, he, hk, rfl⟩) resolves
    exact emitted_unused hr left ⟨c, hc, same.trans (recordedName_type hk).symm⟩
  · intro i hi
    obtain ⟨t, ht, hn⟩ := mem_includes.1 hi
    obtain ⟨item, hitem, ht⟩ := List.mem_flatMap.1 ht
    exact ⟨item, hitem, t, ht, hn⟩

end CInterface.Assembly
