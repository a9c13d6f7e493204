import CInterface.Proofs.Assembly.Accounting
import CInterface.Proofs.Header.Numbers

/-!
# Where the numbers of a header come from

An assembly makes up no numbers: each number in the document of its header is one of a declaration of the input.
-/

namespace CInterface

open Source

theorem Source.Declaration.ShownBy.numbers_eq {d : Declaration} {item : Item} (h : d.ShownBy item) :
    item.numbers = d.numbers := by
  rcases d with a | e | s | f
  · cases item with
    | typedef t => exact congrArg locationNumbers h.2
    | _ => cases h
  · cases item with
    | enumeration t =>
      obtain ⟨-, values, location⟩ := h
      have same := congrArg (List.filterMap Prod.snd) values
      rw [List.filterMap_map, List.filterMap_map] at same
      exact congrArg₂ (· ++ ·) same (congrArg locationNumbers location)
    | _ => cases h
  · cases item with
    | struct t => exact congrArg locationNumbers h.2.2
    | _ => cases h
  · cases item with
    | prototype t => exact congrArg locationNumbers h.2.2
    | _ => cases h

theorem Assembly.exists_declaration_of_mem_integers {ds : List Declaration} {target : String} {n : Int}
    (hn : n ∈ (of ds target).header.document.integers) : ∃ d ∈ ds, n ∈ d.numbers := by
  rw [Header.integers_document, List.mem_flatMap] at hn
  obtain ⟨item, hitem, hn⟩ := hn
  obtain ⟨r, hr, rfl⟩ := mem_header_items.1 hitem
  obtain ⟨accepted, resolves⟩ := emitted_resolves hr
  rw [(Scope.resolveDeclaration_shownBy resolves).numbers_eq] at hn
  exact ⟨r.source, (Selection.accepted_sublist ds).subset accepted, hn⟩

end CInterface
