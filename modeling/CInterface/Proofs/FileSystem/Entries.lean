import CInterface.FileSystem
import CInterface.Proofs.Except
import Mathlib.Data.List.Basic

/-!
# Entries of a file system

What is found under which names after a change. A file in a place where nothing was disturbs no other entry: the
way to every other entry stays as it was, and once the file is removed again everything is as before.
-/

namespace CInterface

def Node.mode : Node → Nat
  | .directory => FileSystem.directoryMode
  | .file mode _ => mode

namespace FileSystem

theorem lookup_cons_of_ne {trail other : Trail} (h : other ≠ trail) (node : Node) (nodes : List (Trail × Node)) :
    ((trail, node) :: nodes).lookup other = nodes.lookup other := by
  simp [List.lookup_cons, beq_false_of_ne h]

theorem lookup_putNode (trail other : Trail) (node : Node) (nodes : List (Trail × Node)) :
    (putNode trail node nodes).lookup other = if other = trail then some node else nodes.lookup other := by
  induction nodes with
  | nil =>
    by_cases h : other = trail
    · rw [if_pos h, h, putNode, List.lookup_cons_self]
    · rw [if_neg h, putNode, lookup_cons_of_ne h]
  | cons entry rest ih =>
    obtain ⟨t, n⟩ := entry
    rw [putNode]
    by_cases ht : t = trail
    · subst ht
      by_cases h : other = t
      · rw [if_pos rfl, if_pos h, h, List.lookup_cons_self]
      · rw [if_pos rfl, if_neg h, lookup_cons_of_ne h, lookup_cons_of_ne h]
    · rw [if_neg ht]
      by_cases h : other = t
      · subst h
        rw [List.lookup_cons_self, if_neg ht, List.lookup_cons_self]
      · rw [lookup_cons_of_ne h, ih, lookup_cons_of_ne h]

theorem find?_put {fs : FileSystem} {trail : Trail} (inside : trail ≠ []) (node : Node) (other : Trail) :
    (fs.put trail node).find? other = if other = trail then some node else fs.find? other := by
  cases other with
  | nil => simp [find?, inside.symm]
  | cons name names => exact lookup_putNode trail (name :: names) node fs.nodes

theorem find?_put_self {fs : FileSystem} {trail : Trail} (inside : trail ≠ []) (node : Node) :
    (fs.put trail node).find? trail = some node := by
  rw [find?_put inside, if_pos rfl]

theorem find?_put_of_ne {fs : FileSystem} {trail other : Trail} (inside : trail ≠ []) (node : Node)
    (h : other ≠ trail) : (fs.put trail node).find? other = fs.find? other := by
  rw [find?_put inside, if_neg h]

theorem ne_nil_of_find?_eq_none {fs : FileSystem} {trail : Trail} (h : fs.find? trail = none) : trail ≠ [] := by
  rintro rfl
  simp [find?] at h

theorem putNode_putNode (trail : Trail) (first second : Node) (nodes : List (Trail × Node)) :
    putNode trail second (putNode trail first nodes) = putNode trail second nodes := by
  induction nodes with
  | nil => simp [putNode]
  | cons entry rest ih =>
    obtain ⟨t, n⟩ := entry
    by_cases h : t = trail <;> simp [putNode, h, ih]

theorem put_put (fs : FileSystem) (trail : Trail) (first second : Node) :
    (fs.put trail first).put trail second = fs.put trail second := by
  simp [put, putNode_putNode]

theorem filter_putNode {trail : Trail} {nodes : List (Trail × Node)} (fresh : nodes.lookup trail = none)
    (node : Node) : (putNode trail node nodes).filter (·.1 ≠ trail) = nodes := by
  induction nodes with
  | nil => simp [putNode]
  | cons entry rest ih =>
    obtain ⟨t, n⟩ := entry
    rw [List.lookup_eq_none_iff] at fresh
    have other : t ≠ trail := by
      rintro rfl
      simpa using fresh (t, n) List.mem_cons_self
    have absent : rest.lookup trail = none :=
      List.lookup_eq_none_iff.2 fun e he => fresh e (List.mem_cons_of_mem _ he)
    rw [putNode, if_neg other, List.filter_cons_of_pos (by simpa using other), ih absent]

/-- Removing a file that was made where nothing was undoes the making. -/
theorem remove_put {fs : FileSystem} {trail : Trail} (fresh : fs.find? trail = none) (node : Node) :
    (fs.put trail node).remove trail = fs := by
  cases trail with
  | nil => simp [find?] at fresh
  | cons name names =>
    have same : (putNode (name :: names) node fs.nodes).filter (·.1 ≠ name :: names) = fs.nodes :=
      filter_putNode fresh node
    simp only [remove, put, same]

theorem setOctets_put {fs : FileSystem} {trail : Trail} (inside : trail ≠ []) (mode : Nat)
    (old octets : List UInt8) :
    (fs.put trail (.file mode old)).setOctets trail octets = fs.put trail (.file mode octets) := by
  simp only [setOctets, modify, find?_put_self inside, put_put]

theorem setMode_put {fs : FileSystem} {trail : Trail} (inside : trail ≠ []) (old mode : Nat)
    (octets : List UInt8) :
    (fs.put trail (.file old octets)).setMode trail mode = fs.put trail (.file mode octets) := by
  simp only [setMode, modify, find?_put_self inside, put_put]

/-- The way to a directory depends on the directories alone. -/
theorem enter_of_directories {fs fs' : FileSystem}
    (same : ∀ trail, fs'.find? trail = some .directory ↔ fs.find? trail = some .directory) (start directory : Trail)
    (names : List String) : fs'.enter start names = .ok directory ↔ fs.enter start names = .ok directory := by
  induction names generalizing start with
  | nil => simp [enter]
  | cons name names ih =>
    simp only [enter]
    by_cases up : name = ".."
    · rw [if_pos up, if_pos up]
      exact ih _
    by_cases long : longestName < name.utf8ByteSize
    · simp only [if_neg up, if_pos long]
    rw [if_neg up, if_neg up, if_neg long, if_neg long]
    by_cases there : fs.find? (start ++ [name]) = some .directory
    · simpa only [there, (same _).2 there] using ih _
    · have away : fs'.find? (start ++ [name]) ≠ some .directory := fun h => there ((same _).1 h)
      split <;> split <;> simp_all

theorem locate_of_directories {fs fs' : FileSystem}
    (same : ∀ trail, fs'.find? trail = some .directory ↔ fs.find? trail = some .directory)
    (working : fs'.workingDirectory = fs.workingDirectory) (p : FilePath) (spot : Spot) :
    fs'.locate p = .ok spot ↔ fs.locate p = .ok spot := by
  have ways := fun names directory => enter_of_directories same (fs.start p) directory names
  have starts : fs'.start p = fs.start p := by rw [start, start, working]
  simp only [locate, starts]
  split
  · rfl
  split
  · rfl
  split
  · rfl
  · simp only [map_eq_pure_bind]
    exact except_bind_ok_congr (ways _) _ spot
  · exact except_bind_ok_congr (ways _) _ spot

/-- A new file is no directory on the way to anywhere, so that a way that is open stays open, and none is opened. -/
theorem locate_put {fs : FileSystem} {trail : Trail} (fresh : fs.find? trail = none) (mode : Nat)
    (octets : List UInt8) (p : FilePath) (spot : Spot) :
    (fs.put trail (.file mode octets)).locate p = .ok spot ↔ fs.locate p = .ok spot := by
  have same : ∀ other, (fs.put trail (.file mode octets)).find? other = some .directory ↔
      fs.find? other = some .directory := by
    intro other
    rw [find?_put (ne_nil_of_find?_eq_none fresh)]
    split
    · next here => simp [here, fresh]
    · rfl
  exact locate_of_directories same rfl p spot

/-- The file system with those entries alone whose names are kept. -/
def keep (fs : FileSystem) (kept : Trail → Bool) : FileSystem :=
  { fs with nodes := fs.nodes.filter fun entry => kept entry.1 }

theorem find?_keep (fs : FileSystem) {kept : Trail → Bool} {trail : Trail} (h : kept trail = true) :
    (fs.keep kept).find? trail = fs.find? trail := by
  cases trail with
  | nil => rfl
  | cons name names =>
    change (fs.nodes.filter fun entry => kept entry.1).lookup (name :: names) = fs.nodes.lookup (name :: names)
    induction fs.nodes with
    | nil => rfl
    | cons entry rest ih =>
      obtain ⟨t, n⟩ := entry
      by_cases here : name :: names = t
      · subst here
        rw [List.filter_cons, if_pos (show kept (name :: names, n).1 = true from h), List.lookup_cons_self,
          List.lookup_cons_self]
      · rw [lookup_cons_of_ne here, ← ih, List.filter_cons]
        split
        · exact lookup_cons_of_ne here n _
        · rfl

/-- A change to an entry that is not kept does not show. -/
theorem keep_put_of_not (fs : FileSystem) {kept : Trail → Bool} {trail : Trail} (h : kept trail = false) (node : Node) :
    (fs.put trail node).keep kept = fs.keep kept := by
  have entries : (putNode trail node fs.nodes).filter (fun entry => kept entry.1)
      = fs.nodes.filter fun entry => kept entry.1 := by
    induction fs.nodes with
    | nil => simp [putNode, h]
    | cons entry rest ih =>
      obtain ⟨t, n⟩ := entry
      by_cases here : t = trail
      · subst here
        simp [putNode, h]
      · simp [putNode, here, List.filter_cons, ih]
  simp only [keep, put, entries]

theorem keep_put (fs : FileSystem) {kept : Trail → Bool} {trail : Trail} (h : kept trail = true) (node : Node) :
    (fs.put trail node).keep kept = (fs.keep kept).put trail node := by
  have entries : (putNode trail node fs.nodes).filter (fun entry => kept entry.1)
      = putNode trail node (fs.nodes.filter fun entry => kept entry.1) := by
    induction fs.nodes with
    | nil => simp [putNode, h]
    | cons entry rest ih =>
      obtain ⟨t, n⟩ := entry
      by_cases here : t = trail
      · subst here
        simp [putNode, h]
      · by_cases shown : kept t = true <;> simp [putNode, here, shown, ih]
  simp only [keep, put, entries]

/-- What is removed may as well be kept. -/
theorem keep_remove (fs : FileSystem) {kept : Trail → Bool} {trail : Trail} (h : kept trail = false) :
    ((fs.remove trail).keep fun other => kept other || other = trail) = fs.keep kept := by
  have entries : (fs.nodes.filter fun entry => (kept entry.1 || entry.1 = trail) && entry.1 ≠ trail)
      = fs.nodes.filter fun entry => kept entry.1 := by
    refine List.filter_congr fun entry _ => ?_
    by_cases here : entry.1 = trail <;> simp [here, h]
  simp only [keep, remove, List.filter_filter, entries]

/-- Where nothing is, nothing is left out. -/
theorem keep_of_fresh {fs : FileSystem} {trail : Trail} (fresh : fs.find? trail = none) (kept : Trail → Bool) :
    (fs.keep fun other => kept other && other ≠ trail) = fs.keep kept := by
  have absent : ∀ entry ∈ fs.nodes, entry.1 ≠ trail := by
    rintro ⟨t, n⟩ mem rfl
    cases t with
    | nil => simp [find?] at fresh
    | cons name names => simpa using List.lookup_eq_none_iff.1 fresh _ mem
  have entries : (fs.nodes.filter fun entry => kept entry.1 && entry.1 ≠ trail)
      = fs.nodes.filter fun entry => kept entry.1 :=
    List.filter_congr fun entry mem => by simp [absent entry mem]
  simp only [keep, entries]

/-- A path to an entry leads to the name at its end. -/
theorem name_of_locate {fs : FileSystem} {p : FilePath} {directory : Trail} {name : String}
    (h : fs.locate p = .ok (.entry directory name)) : name = p.name := by
  rw [locate] at h
  split at h
  · cases h
  split at h
  · cases h
  split at h
  · cases h
  · rw [map_eq_pure_bind] at h
    obtain ⟨_, -, h⟩ := except_bind_ok.1 h
    cases h
  · next last =>
    obtain ⟨d, -, h⟩ := except_bind_ok.1 h
    split at h
    · cases h
    · cases h
      rw [FilePath.name, last, Option.getD_some]

theorem createTemporary_ok {fs fs' : FileSystem} {p : FilePath} {trail : Trail}
    (h : fs.createTemporary p = .ok (trail, fs')) :
    (∃ directory number, trail = directory ++ [FilePath.temporaryName p.name number]) ∧
      fs.find? trail = none ∧ fs' = fs.put trail (.file 0o600 []) := by
  simp only [createTemporary] at h
  generalize FilePath.mk _ _ = spelled at h
  split at h
  · cases h
  split at h
  · cases h
  obtain ⟨_, -, h⟩ := except_bind_ok.1 h
  split at h
  · cases h
  split at h
  · next free =>
    cases h
    have mem := List.mem_of_find?_eq_some free
    obtain ⟨number, -, rfl⟩ := List.mem_map.1 mem
    have absent := List.find?_some free
    exact ⟨⟨_, number, rfl⟩, Option.isNone_iff_eq_none.1 absent, rfl⟩
  · cases h

theorem replace_ok {fs fs' : FileSystem} {source : Trail} {p : FilePath} (h : fs.replace source p = .ok fs') :
    ∃ directory name node, fs.locate p = .ok (.entry directory name) ∧ fs.find? source = some node ∧
      fs.find? (directory ++ [name]) ≠ some .directory ∧ fs' = (fs.remove source).put (directory ++ [name]) node := by
  obtain ⟨spot, located, h⟩ := except_bind_ok.1 h
  cases spot with
  | directory trail => cases h
  | entry directory name =>
    refine ⟨directory, name, ?_⟩
    simp only at h
    split at h
    · cases h
    · cases h
    · next node there notDirectory =>
      cases h
      exact ⟨node, located, there, notDirectory, rfl⟩

theorem modeAt_eq {fs : FileSystem} {p : FilePath} {directory : Trail} {name : String}
    (h : fs.locate p = .ok (.entry directory name)) :
    fs.modeAt p = (fs.find? (directory ++ [name])).elim (.error .noEntry) fun node => .ok node.mode := by
  rw [modeAt, open?, h]
  simp only [bind, Except.bind]
  cases fs.find? (directory ++ [name]) with
  | none => rfl
  | some node => cases node <;> rfl

/-- The mode that a file in a place is to have: that of the file that is there, or that of a new file. -/
def modeFor (fs : FileSystem) (trail : Trail) : Nat := ((fs.find? trail).map Node.mode).getD fs.newMode

/-- The name of a temporary file is longer than the name that it is made from. -/
theorem temporaryName_ne (name : String) (number : Nat) : FilePath.temporaryName name number ≠ name := by
  intro same
  have lengths := congrArg String.length same
  simp only [FilePath.temporaryName, String.length_append] at lengths
  have dot : ".".length = 1 := rfl
  omega

end FileSystem

end CInterface
