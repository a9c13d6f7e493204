import CInterface.Proofs.Description.Format
import CInterface.Proofs.Header.Numbers

/-!
# The numbers that are read

All numbers of a module are numbers of the description that it is read from.
-/

namespace CInterface.Description

open Source
open Json (Value Members integersOfItems_eq integersOfMembers)

variable {members : Members} {key : String}

theorem integers_subset_of_find? {v : Value} (found : members.find? key = some v) :
    v.integers ⊆ integersOfMembers members := by
  obtain ⟨before, after, rfl, -⟩ := List.lookup_eq_some_iff.1 found
  intro n hn
  rw [Json.integersOfMembers_eq, List.mem_flatMap]
  exact ⟨(key, v), by simp, hn⟩

theorem mem_of_require_whole {n : Int} (h : require members key .whole = .ok n) : n ∈ integersOfMembers members := by
  obtain ⟨v, found, seen⟩ := require_ok.1 h
  cases v with
  | int m =>
    cases seen
    exact integers_subset_of_find? found List.mem_cons_self
  | _ => cases seen

theorem mem_of_optional_whole {n : Int} (h : optional members key .whole = .ok (some n)) :
    n ∈ integersOfMembers members := by
  obtain ⟨-, absent⟩ | ⟨v, m, found, -, seen, same⟩ := optional_ok.1 h
  · cases absent
  · cases same
    exact mem_of_require_whole (require_seen found seen)

theorem integers_subset_of_objectList {all : List Members} (h : objectList members key = .ok all) {ms : Members}
    (hms : ms ∈ all) : integersOfMembers ms ⊆ integersOfMembers members := by
  obtain ⟨-, rfl⟩ | found := objectList_ok.1 h
  · cases hms
  · refine fun n hn => integers_subset_of_find? found ?_
    rw [Value.integers, integersOfItems_eq, List.mem_flatMap]
    exact ⟨.object ms, List.mem_map_of_mem hms, hn⟩

theorem numbers_subset_of_readLocation {location : Option Location} (h : readLocation members = .ok location) :
    locationNumbers location ⊆ integersOfMembers members := by
  rw [readLocation, except_bind_ok] at h
  obtain ⟨place?, given, h⟩ := h
  cases place? with
  | none =>
    cases h
    exact List.nil_subset _
  | some place =>
    simp only [except_bind_ok] at h
    obtain ⟨file, -, line, hline, column, hcolumn, h⟩ := h
    cases h
    obtain ⟨-, absent⟩ | ⟨v, _, found, -, seen, same⟩ := optional_ok.1 given
    · cases absent
    cases same
    obtain rfl := View.get?_object.1 seen
    have inside : integersOfMembers place ⊆ integersOfMembers members := integers_subset_of_find? found
    refine List.cons_subset.2 ⟨inside (mem_of_require_whole hline), fun n hn => ?_⟩
    rw [Option.mem_toList] at hn
    cases hn
    exact inside (mem_of_optional_whole hcolumn)

theorem mem_of_readVariant {v : Variant} (h : readVariant members = .ok v) {n : Int} (hn : v.value = some n) :
    n ∈ integersOfMembers members := by
  simp only [readVariant, except_bind_ok] at h
  obtain ⟨name, -, value, given, h⟩ := h
  cases h
  cases hn
  exact mem_of_optional_whole given

section

variable {name : String} {isPublic : Bool} {location : Option Location}

theorem location_of_readAlias {a : Alias} (h : readAlias members name isPublic location = .ok a) :
    a.location = location := by
  rw [readAlias] at h
  split at h
  · cases h
  · simp only [except_bind_ok] at h
    obtain ⟨params, -, target, -, h⟩ := h
    cases h
    rfl

theorem location_of_readStruct {s : Struct} (h : readStruct members name isPublic location = .ok s) :
    s.location = location := by
  simp only [readStruct, except_bind_ok] at h
  obtain ⟨all, -, fields, -, reprC, -, h⟩ := h
  cases h
  rfl

theorem location_of_readFunction {f : Function} (h : readFunction members name isPublic location = .ok f) :
    f.location = location := by
  simp only [readFunction, except_bind_ok] at h
  obtain ⟨all, -, parameters, -, returnType, -, hasCLinkage, -, isUnmangled, -, exportName, -, h⟩ := h
  cases h
  rfl

theorem values_subset_of_readEnumeration {e : Enumeration}
    (h : readEnumeration members name isPublic location = .ok e) :
    e.location = location ∧ e.variants.filterMap Variant.value ⊆ integersOfMembers members := by
  simp only [readEnumeration, except_bind_ok] at h
  obtain ⟨all, listed, variants, read, reprC, -, reprHint, -, h⟩ := h
  cases h
  refine ⟨rfl, fun n hn => ?_⟩
  obtain ⟨v, hv, value⟩ := List.mem_filterMap.1 hn
  obtain ⟨ms, hms, hread⟩ := forall₂_mem_right (except_mapM_ok.1 read) hv
  exact integers_subset_of_objectList listed hms (mem_of_readVariant hread value)

end

theorem numbers_subset_of_readBody {kind name : String} {d : Declaration} (h : readBody members kind name = .ok d) :
    d.numbers ⊆ integersOfMembers members := by
  simp only [readBody, except_bind_ok] at h
  obtain ⟨isPublic, -, location, place, h⟩ := h
  have located := numbers_subset_of_readLocation place
  split at h
  · obtain ⟨a, read, h⟩ := except_bind_ok.1 h
    cases h
    rwa [Declaration.numbers, location_of_readAlias read]
  split at h
  · obtain ⟨e, read, h⟩ := except_bind_ok.1 h
    cases h
    obtain ⟨same, values⟩ := values_subset_of_readEnumeration read
    rw [Declaration.numbers, same]
    exact List.append_subset.2 ⟨values, located⟩
  split at h
  · obtain ⟨s, read, h⟩ := except_bind_ok.1 h
    cases h
    rwa [Declaration.numbers, location_of_readStruct read]
  split at h
  · obtain ⟨f, read, h⟩ := except_bind_ok.1 h
    cases h
    rwa [Declaration.numbers, location_of_readFunction read]
  · cases h

theorem numbers_subset_of_readDeclaration {index : Nat} {d : Declaration} (h : readDeclaration index members = .ok d) :
    d.numbers ⊆ integersOfMembers members := by
  simp only [readDeclaration, except_bind_ok, except_mapError_ok] at h
  obtain ⟨kind, -, name, -, h⟩ := h
  exact numbers_subset_of_readBody h

theorem exists_members_of_readDeclarations {index : Nat} {all : List Members} {ds : List Declaration}
    (h : readDeclarations index all = .ok ds) {d : Declaration} (hd : d ∈ ds) :
    ∃ ms ∈ all, ∃ i, readDeclaration i ms = .ok d := by
  induction all generalizing index ds with
  | nil =>
    cases h
    cases hd
  | cons ms all ih =>
    simp only [readDeclarations, except_bind_ok] at h
    obtain ⟨first, read, rest, others, h⟩ := h
    cases h
    obtain rfl | hd := List.mem_cons.1 hd
    · exact ⟨ms, List.mem_cons_self, index, read⟩
    · obtain ⟨ms', hms, i, read'⟩ := ih others hd
      exact ⟨ms', List.mem_cons_of_mem _ hms, i, read'⟩

/-- No number of a module is made up by reading it. -/
theorem numbers_subset_of_readModule {filename : String} {v : Value} {m : Module} (h : readModule filename v = .ok m)
    {d : Declaration} (hd : d ∈ m.declarations) : d.numbers ⊆ v.integers := by
  cases v with
  | object members =>
    simp only [readModule, except_bind_ok, except_mapError_ok] at h
    obtain ⟨path, -, all, listed, ds, read, h⟩ := h
    cases h
    obtain ⟨ms, hms, i, read'⟩ := exists_members_of_readDeclarations read hd
    exact List.Subset.trans (numbers_subset_of_readDeclaration read') (integers_subset_of_objectList listed hms)
  | _ => cases h

end CInterface.Description
