import CInterface.Selection
import Mathlib.Data.List.Nodup
import Mathlib.Data.List.Perm.Basic

/-!
# The names of a selection

Every accepted declaration comes from the input, in the order of the input, and no two of them take the same name
in the header. Taking them section by section only changes their order.
-/

namespace CInterface

open Source

theorem Source.Declaration.headerName_eq_name {d : Declaration} (h : d.kind ≠ .function) :
    d.headerName = d.name := by
  rcases d with a | e | s | f
  · rfl
  · rfl
  · rfl
  · exact absurd rfl h

theorem headerName_free_of_accepted {taken : List Declaration} {d : Declaration}
    (h : verdict taken d = .accepted) : d.headerName ∉ taken.map (·.headerName) := by
  intro mem
  obtain ⟨e, he, same⟩ := List.mem_map.1 mem
  rw [verdict] at h
  split at h
  · cases h
  · split at h
    · cases h
    · split at h
      · cases h
      next free => simpa [same] using List.find?_eq_none.1 free e he

namespace Selection

/-- The declarations accepted from a list after `taken`. -/
def acceptedAfter (taken ds : List Declaration) : List Declaration :=
  (judge taken ds).filterMap accepted?

@[simp] theorem acceptedAfter_nil (taken : List Declaration) : acceptedAfter taken [] = [] := rfl

theorem acceptedAfter_cons_accepted {taken : List Declaration} {d : Declaration} (ds : List Declaration)
    (h : verdict taken d = .accepted) :
    acceptedAfter taken (d :: ds) = d :: acceptedAfter (taken ++ [d]) ds := by
  simp [acceptedAfter, judge, h, accepted?]

theorem acceptedAfter_cons_other {taken : List Declaration} {d : Declaration} (ds : List Declaration)
    (h : verdict taken d ≠ .accepted) : acceptedAfter taken (d :: ds) = acceptedAfter taken ds := by
  cases hv : verdict taken d with
  | accepted => exact absurd hv h
  | internal => simp only [acceptedAfter, judge, hv, List.filterMap_cons, accepted?]
  | refused cause => simp only [acceptedAfter, judge, hv, List.filterMap_cons, accepted?]

theorem acceptedAfter_sublist (taken ds : List Declaration) : (acceptedAfter taken ds).Sublist ds := by
  induction ds generalizing taken with
  | nil => exact List.Sublist.refl _
  | cons d ds ih =>
    by_cases h : verdict taken d = .accepted
    · rw [acceptedAfter_cons_accepted ds h]
      exact (ih _).cons_cons d
    · rw [acceptedAfter_cons_other ds h]
      exact (ih _).cons d

/-- The names that are taken stay distinct while declarations are accepted. -/
theorem acceptedAfter_headerName_nodup (taken ds : List Declaration)
    (h : (taken.map (·.headerName)).Nodup) :
    ((taken ++ acceptedAfter taken ds).map (·.headerName)).Nodup := by
  induction ds generalizing taken with
  | nil => simpa using h
  | cons d ds ih =>
    by_cases hv : verdict taken d = .accepted
    · have fresh : ((taken ++ [d]).map (·.headerName)).Nodup := by
        rw [List.map_append, List.nodup_append']
        exact ⟨h, List.nodup_singleton _, by simpa using headerName_free_of_accepted hv⟩
      simpa [acceptedAfter_cons_accepted ds hv] using ih _ fresh
    · rw [acceptedAfter_cons_other ds hv]
      exact ih _ h

theorem accepted_sublist (ds : List Declaration) : (of ds).accepted.Sublist ds :=
  acceptedAfter_sublist [] ds

theorem accepted_headerName_nodup (ds : List Declaration) :
    ((of ds).accepted.map (·.headerName)).Nodup :=
  acceptedAfter_headerName_nodup [] ds List.nodup_nil

theorem inSections_perm (s : Selection) : s.inSections.Perm s.accepted := by
  simp only [inSections, ofKind]
  induction s.accepted with
  | nil => exact List.Perm.refl _
  | cons d ds ih =>
    -- each kind but the first puts its declaration behind the sections before it
    rcases d with a | e | s | f
    · exact ih.cons _
    · refine List.Perm.trans ?_ (ih.cons _)
      simp only [List.append_assoc]
      exact List.perm_middle
    · refine List.Perm.trans ?_ (ih.cons _)
      simp only [List.append_assoc]
      exact (List.perm_middle.append_left _).trans List.perm_middle
    · exact List.perm_middle.trans (ih.cons _)

theorem mem_inSections {s : Selection} {d : Declaration} : d ∈ s.inSections ↔ d ∈ s.accepted :=
  s.inSections_perm.mem_iff

theorem inSections_headerName_nodup (ds : List Declaration) :
    ((of ds).inSections.map (·.headerName)).Nodup :=
  ((of ds).inSections_perm.map _).nodup_iff.2 (accepted_headerName_nodup ds)

theorem eq_of_headerName_eq {ds : List Declaration} {d e : Declaration} (hd : d ∈ (of ds).accepted)
    (he : e ∈ (of ds).accepted) (same : d.headerName = e.headerName) : d = e :=
  List.inj_on_of_nodup_map (accepted_headerName_nodup ds) hd he same

theorem mem_exportedNames {s : Selection} {name : String} :
    name ∈ s.exportedNames ↔ ∃ d ∈ s.accepted, d.kind ≠ .function ∧ d.name = name := by
  simp [exportedNames, and_assoc]

end Selection

end CInterface
