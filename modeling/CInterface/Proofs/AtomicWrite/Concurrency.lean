import CInterface.Proofs.AtomicWrite.Atomicity
import CInterface.Proofs.AtomicWrite.Processes

/-!
# Writes at the same time

However processes that write to one place are interleaved and whatever fails, their temporary files stay apart, since
each is made where nothing was. All that the processes share is the destination: it is what it was at the start, or the
whole text of the process that was the last to replace it, and its mode never changes.
-/

namespace CInterface.AtomicWrite

variable {ι : Type} {calls : ι → Call} {c : Crowd ι} {replaced : List ι} {call : Call} {fs : FileSystem}
variable {directory place : Trail} {name : String} {node : Node}

theorem Own.ne_place {temporary : Trail} (own : Own call.job fs temporary) (leads : call.LeadsTo fs directory name) :
    temporary ≠ directory ++ [name] := by
  obtain ⟨other, number, rfl⟩ := own.named
  intro same
  have names : FilePath.temporaryName call.job.destination.name number = name := by
    simpa using List.append_inj_right' same rfl
  change FilePath.temporaryName call.destination.name number = name at names
  rw [leads.named] at names
  exact FileSystem.temporaryName_ne name number names

/-- The file system at the start, with the destination as the last process to replace it has left it. -/
def settled (calls : ι → Call) (fs : FileSystem) (place : Trail) (replaced : List ι) : FileSystem :=
  match replaced.head? with
  | some i => fs.put place (.file (fs.modeFor place) (calls i).job.octets)
  | none => fs

/-- A trail of a temporary file. -/
def Crowd.Hides (c : Crowd ι) (trail : Trail) : Prop := ∃ i, (c.phase i).temporary? = some trail

/-- What holds of processes at any time: each is where its phase says, no two have one temporary file, and without the
temporary files everything is as it was at the start but for the destination. -/
structure Sound (calls : ι → Call) (fs : FileSystem) (place : Trail) (c : Crowd ι) (replaced : List ι) : Prop where
  stage : ∀ i, Stage (calls i) fs c.shared (c.phase i) (c.umask i)
  apart : ∀ i j temporary, (c.phase i).temporary? = some temporary → (c.phase j).temporary? = some temporary → i = j
  kept : ∃ kept : Trail → Bool, (∀ trail, kept trail = false ↔ c.Hides trail) ∧
    c.shared.keep kept = settled calls fs place replaced
  permitted : replaced ≠ [] → fs.find? place ≠ some .directory
  succeeded : ∀ i, i ∈ replaced ↔ (c.phase i).succeeded = true

theorem sound_start (calls : ι → Call) (fs : FileSystem) (place : Trail) :
    Sound calls fs place (.start ι fs) [] where
  stage _ := .start
  apart _ _ _ h := by cases h
  kept := by
    refine ⟨fun _ => true, fun trail => ?_, ?_⟩
    · simp [Crowd.Hides, Crowd.start, Phase.temporary?]
    · simp [Crowd.start, FileSystem.keep, settled]
  permitted h := absurd rfl h
  succeeded i := by simp [Crowd.start, Phase.succeeded]

theorem find?_settled_of_ne {trail : Trail} (inside : place ≠ []) (other : trail ≠ place) :
    (settled calls fs place replaced).find? trail = fs.find? trail := by
  cases replaced with
  | nil => rfl
  | cons i rest => exact FileSystem.find?_put_of_ne inside _ other

theorem find?_settled_place (inside : place ≠ []) :
    (settled calls fs place replaced).find? place = (replaced.head?.map fun i =>
      Node.file (fs.modeFor place) (calls i).job.octets).or (fs.find? place) := by
  cases replaced with
  | nil => rfl
  | cons i rest => exact FileSystem.find?_put_self inside _

theorem settled_put (calls : ι → Call) (replaced : List ι) (node : Node) :
    (settled calls fs place replaced).put place node = fs.put place node := by
  cases replaced with
  | nil => rfl
  | cons i rest => exact FileSystem.put_put ..

theorem settled_cases (calls : ι → Call) (fs : FileSystem) (place : Trail) (replaced : List ι) :
    replaced = [] ∧ settled calls fs place replaced = fs ∨ ∃ i ∈ replaced.head?,
      settled calls fs place replaced = fs.put place (.file (fs.modeFor place) (calls i).text.toUTF8.data.toList) := by
  cases replaced with
  | nil => exact .inl ⟨rfl, rfl⟩
  | cons i rest => exact .inr ⟨i, rfl, by rw [← Text.encode_eq_toUTF8]; rfl⟩

theorem Sound.find?_shared (sound : Sound calls fs place c replaced) {trail : Trail} (open_ : ¬ c.Hides trail) :
    c.shared.find? trail = (settled calls fs place replaced).find? trail := by
  obtain ⟨kept, hides, same⟩ := sound.kept
  have shown : kept trail = true := by
    rw [← Bool.not_eq_false, hides]
    exact open_
  rw [← same, FileSystem.find?_keep _ shown]

section

variable (sound : Sound calls fs (directory ++ [name]) c replaced) (leads : ∀ i, (calls i).LeadsTo fs directory name)

include sound leads

theorem Sound.place_shown : ¬ c.Hides (directory ++ [name]) := by
  rintro ⟨i, holds⟩
  exact ((sound.stage i).own holds).1.ne_place (leads i) rfl

/-- Whatever others do, a process finds what it relies on. -/
theorem Sound.rely (i : ι) : Rely (calls i) fs c.shared directory name := by
  have inside : directory ++ [name] ≠ [] := by simp
  have open_ := sound.find?_shared (sound.place_shown leads)
  rw [find?_settled_place inside] at open_
  refine ⟨leads i, fun trail => ?_, fun trail absent => ?_, fun node there => ?_⟩
  · by_cases hidden : c.Hides trail
    · obtain ⟨j, holds⟩ := hidden
      obtain ⟨own, mode, octets, here⟩ := (sound.stage j).own holds
      simp [here, own.fresh]
    · by_cases here : trail = directory ++ [name]
      · subst here
        rw [open_]
        cases hr : replaced with
        | nil => rfl
        | cons j rest => simpa using sound.permitted (by simp [hr])
      · rw [sound.find?_shared hidden, find?_settled_of_ne inside here]
  · by_cases hidden : c.Hides trail
    · obtain ⟨j, holds⟩ := hidden
      exact ((sound.stage j).own holds).1.fresh
    · by_cases here : trail = directory ++ [name]
      · subst here
        rw [open_, Option.or_eq_none_iff] at absent
        exact absent.2
      · rwa [sound.find?_shared hidden, find?_settled_of_ne inside here] at absent
  · rw [open_] at there
    cases hr : replaced with
    | nil =>
      rw [hr] at there
      rw [FileSystem.modeFor, show fs.find? (directory ++ [name]) = some node from there]
      rfl
    | cons j rest =>
      rw [hr] at there
      cases there
      rfl

end

/-- A move of one process leaves all entries but its temporary file and the destination. -/
theorem Effect.find?_of_ne {shared shared' : FileSystem} {own own' : Option Trail} {replaces : Bool}
    (effect : Effect place node shared own own' replaces shared') (inside : place ≠ [])
    (named : ∀ temporary, own = some temporary → temporary ≠ []) {trail : Trail} (other : trail ≠ place)
    (before : own ≠ some trail) (after : own' ≠ some trail) : shared'.find? trail = shared.find? trail := by
  have removed (temporary : Trail) (differ : trail ≠ temporary) :
      (shared.remove temporary).find? trail = shared.find? trail := by
    change (shared.keep fun t => t ≠ temporary).find? trail = _
    exact shared.find?_keep (by simpa using differ)
  cases effect with
  | nothing => rfl
  | @make temporary free _ _ =>
    have differ : trail ≠ temporary := fun same => after (same ▸ rfl)
    exact FileSystem.find?_put_of_ne (FileSystem.ne_nil_of_find?_eq_none free) _ differ
  | @change temporary _ _ =>
    have differ : trail ≠ temporary := fun same => after (same ▸ rfl)
    exact FileSystem.find?_put_of_ne (named temporary rfl) _ differ
  | @remove temporary => exact removed temporary fun same => before (same ▸ rfl)
  | @replace temporary _ =>
    rw [FileSystem.find?_put_of_ne inside _ other]
    exact removed temporary fun same => before (same ▸ rfl)

theorem hides_iff (c : Crowd ι) (i : ι) (trail : Trail) :
    c.Hides trail ↔ (c.phase i).temporary? = some trail ∨ ∃ j, j ≠ i ∧ (c.phase j).temporary? = some trail := by
  constructor
  · rintro ⟨j, holds⟩
    by_cases same : j = i
    · exact .inl (same ▸ holds)
    · exact .inr ⟨j, same, holds⟩
  · rintro (holds | ⟨j, -, holds⟩)
    · exact ⟨i, holds⟩
    · exact ⟨j, holds⟩

/-- A temporary file belongs to one process: what a move gives to one, no other has. -/
theorem Sound.apart_advance (sound : Sound calls fs place c replaced) {i : ι} {next : Phase × FileSystem} {replaces : Bool}
    {shared' : FileSystem}
    (effect : Effect place node c.shared (c.phase i).temporary? next.1.temporary? replaces shared') {j : ι}
    (other : j ≠ i) {temporary : Trail} (holds : next.1.temporary? = some temporary) :
    (c.phase j).temporary? ≠ some temporary := by
  intro taken
  generalize mine : (c.phase i).temporary? = own at effect
  generalize next.1.temporary? = own' at *
  cases effect with
  | nothing => exact other (sound.apart j i temporary taken (mine.trans holds))
  | make free _ _ =>
    obtain ⟨-, mode, octets, here⟩ := (sound.stage j).own taken
    cases holds
    rw [free] at here
    cases here
  | change _ _ => exact other (sound.apart j i temporary taken (mine.trans holds))
  | remove => cases holds
  | replace _ => cases holds

/-- Only a destination that is no directory is replaced. -/
theorem Effect.permitted {shared shared' : FileSystem} {own own' : Option Trail}
    (effect : Effect place node shared own own' true shared') : shared.find? place ≠ some .directory := by
  cases effect
  assumption

section

variable [DecidableEq ι] {i : ι} {next : Phase × FileSystem}

theorem hides_advance (c : Crowd ι) (i : ι) (next : Phase × FileSystem) (trail : Trail) :
    (c.advance i next).Hides trail ↔
      next.1.temporary? = some trail ∨ ∃ j, j ≠ i ∧ (c.phase j).temporary? = some trail := by
  rw [hides_iff _ i, Crowd.phase_advance_self]
  refine or_congr_right (exists_congr fun j => and_congr_right fun differ => ?_)
  rw [Crowd.phase_advance_of_ne _ _ differ]

/-- Without the temporary files, a move that replaces nothing does not show. -/
theorem Sound.kept_advance (sound : Sound calls fs place c replaced) {replaces : Bool} {shared' : FileSystem}
    (shown : ¬ c.Hides place) (result : node = .file (fs.modeFor place) (calls i).job.octets)
    (effect : Effect place node c.shared (c.phase i).temporary? next.1.temporary? replaces shared') :
    ∃ kept : Trail → Bool, (∀ trail, kept trail = false ↔ (c.advance i next).Hides trail) ∧
      shared'.keep kept = settled calls fs place (if replaces then i :: replaced else replaced) := by
  obtain ⟨kept, hides, same⟩ := sound.kept
  simp only [hides_advance]
  simp only [hides_iff c i] at hides shown
  have place_kept : kept place = true := by
    rw [← Bool.not_eq_false, hides]
    exact shown
  -- a temporary file that is gone leaves those of the others
  have gone {temporary : Trail} (holds : (c.phase i).temporary? = some temporary) (trail : Trail) :
      (kept trail || trail = temporary) = false ↔
        none = some trail ∨ ∃ j, j ≠ i ∧ (c.phase j).temporary? = some trail := by
    rw [Bool.or_eq_false_iff, hides, holds, decide_eq_false_iff_not]
    constructor
    · rintro ⟨same | others, differ⟩
      · exact absurd (Option.some.inj same).symm differ
      · exact .inr others
    · rintro (absent | ⟨j, differ, other⟩)
      · cases absent
      · exact ⟨.inr ⟨j, differ, other⟩, fun here => differ (sound.apart j i temporary (here ▸ other) holds)⟩
  generalize (c.phase i).temporary? = own at *
  generalize next.1.temporary? = own' at *
  cases effect with
  | nothing => exact ⟨kept, hides, same⟩
  | @make temporary free mode octets =>
    refine ⟨fun trail => kept trail && trail ≠ temporary, fun trail => ?_, ?_⟩
    · rw [Bool.and_eq_false_iff, hides, or_comm]
      refine or_congr ?_ (by simp)
      rw [decide_eq_false_iff_not, Decidable.not_not, Option.some.injEq, eq_comm]
    · rw [FileSystem.keep_put_of_not _ (by simp), FileSystem.keep_of_fresh free, same]
      rfl
  | @change temporary mode octets =>
    have hidden : kept temporary = false := (hides temporary).2 (.inl rfl)
    exact ⟨kept, hides, (FileSystem.keep_put_of_not _ hidden _).trans same⟩
  | @remove temporary =>
    have hidden : kept temporary = false := (hides temporary).2 (.inl rfl)
    exact ⟨fun trail => kept trail || trail = temporary, gone rfl, (c.shared.keep_remove hidden).trans same⟩
  | @replace temporary permitted =>
    have hidden : kept temporary = false := (hides temporary).2 (.inl rfl)
    refine ⟨fun trail => kept trail || trail = temporary, gone rfl, ?_⟩
    rw [FileSystem.keep_put _ (by simp [place_kept]), c.shared.keep_remove hidden, same, settled_put, result]
    rfl

theorem Sound.advance (sound : Sound calls fs (directory ++ [name]) c replaced)
    (leads : ∀ i, (calls i).LeadsTo fs directory name)
    (effect : Effect (directory ++ [name]) (.file (fs.modeFor (directory ++ [name])) (calls i).job.octets) c.shared
      (c.phase i).temporary? next.1.temporary? (next.1.succeeded && !(c.phase i).succeeded) (c.advance i next).shared)
    (stage : Stage (calls i) fs (c.advance i next).shared next.1 next.2.umask)
    (stays : (c.phase i).succeeded = true → next.1.succeeded = true) :
    Sound calls fs (directory ++ [name]) (c.advance i next)
      (if next.1.succeeded && !(c.phase i).succeeded then i :: replaced else replaced) where
  stage j := by
    by_cases mine : j = i
    · subst mine
      simpa using stage
    · rw [Crowd.phase_advance_of_ne _ _ mine, Crowd.umask_advance_of_ne _ _ mine]
      refine (sound.stage j).frame fun temporary holds => ?_
      have own := ((sound.stage j).own holds).1
      refine effect.find?_of_ne (by simp) (fun t mine => ((sound.stage i).own mine).1.inside)
        (own.ne_place (leads j)) (fun same => mine (sound.apart j i temporary holds same)) fun same => ?_
      exact sound.apart_advance effect mine same holds
  apart j k temporary hj hk := by
    by_cases mj : j = i <;> by_cases mk : k = i
    · rw [mj, mk]
    · rw [mj, Crowd.phase_advance_self] at hj
      rw [Crowd.phase_advance_of_ne _ _ mk] at hk
      exact absurd hk (sound.apart_advance effect mk hj)
    · rw [mk, Crowd.phase_advance_self] at hk
      rw [Crowd.phase_advance_of_ne _ _ mj] at hj
      exact absurd hj (sound.apart_advance effect mj hk)
    · rw [Crowd.phase_advance_of_ne _ _ mj] at hj
      rw [Crowd.phase_advance_of_ne _ _ mk] at hk
      exact sound.apart j k temporary hj hk
  kept := sound.kept_advance (sound.place_shown leads) rfl effect
  permitted some_replaced := by
    cases replaces : (next.1.succeeded && !(c.phase i).succeeded) with
    | true =>
      rw [replaces] at effect
      exact fun blocked => effect.permitted (((sound.rely leads i).directories _).2 blocked)
    | false =>
      rw [replaces] at some_replaced
      exact sound.permitted some_replaced
  succeeded j := by
    by_cases mine : j = i
    · subst mine
      rw [Crowd.phase_advance_self]
      have before := sound.succeeded j
      cases was : (c.phase j).succeeded <;> cases now : next.1.succeeded <;> simp_all
    · have before := sound.succeeded j
      rw [Crowd.phase_advance_of_ne _ _ mine]
      split <;> simp [mine, before]

/-- A move of any process keeps what holds at any time. -/
theorem Sound.move (sound : Sound calls fs (directory ++ [name]) c replaced)
    (leads : ∀ i, (calls i).LeadsTo fs directory name) {c' : Crowd ι} (moves : Moves calls c i c') :
    Sound calls fs (directory ++ [name]) c'
      (if (c'.phase i).succeeded && !(c.phase i).succeeded then i :: replaced else replaced) := by
  have rely := sound.rely leads i
  cases moves with
  | step fault honest =>
    obtain ⟨effect, stage⟩ := (sound.stage i).step rely fault honest
    rw [Crowd.phase_advance_self]
    refine sound.advance leads effect stage fun done => ?_
    cases phase : c.phase i with
    | ended result =>
      rw [phase] at done
      rw [AtomicWrite.step]
      exact done
    | _ =>
      rw [phase] at done
      cases done
  | @create chosen temporary fs' number fresh possible named free =>
    have own : Own (calls i).job fs temporary := ⟨rely.fresh _ free, ⟨_, number, named⟩⟩
    have stage := sound.stage i
    rw [fresh] at stage
    have mask : c.umask i = fs.umask := by
      generalize c.umask i = umask at stage
      cases stage
      rfl
    rw [Crowd.phase_advance_self]
    refine sound.advance leads ?_ ?_ fun done => ?_
    · rw [fresh]
      exact .make free _ _
    · change Stage _ _ _ _ (c.umask i)
      rw [mask]
      exact .created own (FileSystem.find?_put_self own.inside _)
    · rw [fresh] at done
      cases done

theorem sound_of_reaches (leads : ∀ i, (calls i).LeadsTo fs directory name) (h : Reaches calls fs c replaced) :
    Sound calls fs (directory ++ [name]) c replaced := by
  induction h with
  | start => exact sound_start calls fs _
  | move _ moves sound => exact sound.move leads moves

/-- What is seen of processes that write to one place: the destination is what it was, or the whole text of the process
that was the last to replace it, and it keeps the mode that it had or was to have. A temporary file belongs to one
process and lies where nothing was; all else is as it was. Once all have ended, so is everything but the destination. -/
structure Unmixed (calls : ι → Call) (fs : FileSystem) (place : Trail) (c : Crowd ι) (replaced : List ι) : Prop where
  replacements : ∀ i, i ∈ replaced ↔ (c.phase i).succeeded = true
  destination : replaced = [] ∧ c.shared.find? place = fs.find? place ∨
    ∃ i ∈ replaced.head?, fs.find? place ≠ some .directory ∧
      c.shared.find? place = some (.file (fs.modeFor place) (calls i).text.toUTF8.data.toList)
  mode : ∀ node, c.shared.find? place = some node → node.mode = fs.modeFor place
  temporaries : ∀ i temporary, (c.phase i).temporary? = some temporary →
    fs.find? temporary = none ∧ temporary ≠ place ∧ ∀ j, (c.phase j).temporary? = some temporary → j = i
  others : ∀ trail, trail ≠ place → (∀ i, (c.phase i).temporary? ≠ some trail) →
    c.shared.find? trail = fs.find? trail
  masks : ∀ i, (c.phase i).result?.isSome = true → c.umask i = fs.umask
  ended : (∀ i, (c.phase i).result?.isSome = true) → replaced = [] ∧ c.shared = fs ∨
    ∃ i ∈ replaced.head?,
      c.shared = fs.put place (.file (fs.modeFor place) (calls i).text.toUTF8.data.toList)

/-- Processes that write to one place never mix what they write, in whatever order they move and whatever fails. -/
theorem concurrent_writes_unmixed (leads : ∀ i, (calls i).LeadsTo fs directory name)
    (h : Reaches calls fs c replaced) : Unmixed calls fs (directory ++ [name]) c replaced := by
  have sound := sound_of_reaches leads h
  have inside : directory ++ [name] ≠ [] := by simp
  have seen := sound.find?_shared (sound.place_shown leads)
  have own {i : ι} {temporary : Trail} (holds : (c.phase i).temporary? = some temporary) :=
    ((sound.stage i).own holds).1
  refine ⟨sound.succeeded, ?_, ?_, ?_, ?_, ?_, ?_⟩
  · rw [seen]
    obtain ⟨none_replaced, same⟩ | ⟨i, last, same⟩ := settled_cases calls fs (directory ++ [name]) replaced
    · exact .inl ⟨none_replaced, by rw [same]⟩
    · refine .inr ⟨i, last, sound.permitted fun nil => ?_, by rw [same, FileSystem.find?_put_self inside]⟩
      rw [nil] at last
      cases last
  · intro node there
    cases replaced with
    | nil =>
      rw [seen] at there
      rw [FileSystem.modeFor, show fs.find? (directory ++ [name]) = some node from there]
      rfl
    | cons i rest => exact (sound.rely leads i).mode node there
  · intro i temporary holds
    exact ⟨(own holds).fresh, (own holds).ne_place (leads i), fun j other => sound.apart j i temporary other holds⟩
  · intro trail other free
    have open_ : ¬ c.Hides trail := by
      rintro ⟨i, holds⟩
      exact free i holds
    rw [sound.find?_shared open_, find?_settled_of_ne inside other]
  · intro i done
    have stage := sound.stage i
    generalize c.phase i = phase at *
    generalize c.umask i = umask at *
    cases stage with
    | ended => rfl
    | _ => cases done
  · intro done
    obtain ⟨kept, hides, same⟩ := sound.kept
    have all (trail : Trail) : kept trail = true := by
      rw [← Bool.not_eq_false, hides]
      rintro ⟨i, holds⟩
      have ended := done i
      generalize c.phase i = phase at *
      cases phase <;> cases holds <;> cases ended
    have whole : c.shared.keep kept = c.shared := by simp [FileSystem.keep, all]
    rw [← whole, same]
    exact settled_cases calls fs _ replaced

/-- The processes after moves in a given order, the last one first, none of whose calls fails but for the state of the
file system. -/
def inTurn (calls : ι → Call) (fs : FileSystem) : List ι → Crowd ι × List ι
  | [] => (.start ι fs, [])
  | i :: earlier =>
    let (c, replaced) := inTurn calls fs earlier
    let c' := c.advance i (step (calls i).job none (c.phase i) ((calls i).view c.shared (c.umask i)))
    (c', if (c'.phase i).succeeded && !(c.phase i).succeeded then i :: replaced else replaced)

theorem reaches_inTurn (calls : ι → Call) (fs : FileSystem) (order : List ι) :
    Reaches calls fs (inTurn calls fs order).1 (inTurn calls fs order).2 := by
  induction order with
  | nil => exact .start
  | cons i earlier ih => exact .move ih (.step none fun _ _ => nofun)

end

/-- Two processes that write to one file, which is there already. -/
def twoCalls : Bool → Call
  | false => ⟨⟨.relative, ["lib.h"]⟩, "int a;", ["include"]⟩
  | true => ⟨⟨.root, ["include", "lib.h"]⟩, "int b;", []⟩

def oldFile : FileSystem := ⟨[(["include"], .directory), (["include", "lib.h"], .file 0o640 [])], [], 0o022⟩

/-- The first process to begin is the last one to replace the file. -/
theorem unmixed_twoCalls :
    let order := [true, false, false, true, false, true, false, true, false, true]
    (∀ i, (twoCalls i).LeadsTo oldFile ["include"] "lib.h") ∧
      Unmixed twoCalls oldFile ["include", "lib.h"] (inTurn twoCalls oldFile order).1 [true, false] ∧
      (inTurn twoCalls oldFile order).1.shared
        = oldFile.put ["include", "lib.h"] (.file 0o640 "int b;".toUTF8.data.toList) := by
  intro order
  have leads : ∀ i, (twoCalls i).LeadsTo oldFile ["include"] "lib.h" := by
    intro i
    have located : ((twoCalls i).view oldFile oldFile.umask).locate (twoCalls i).destination
        = .ok (.entry ["include"] "lib.h") := by
      cases i <;> decide +kernel
    refine ⟨by cases i <;> rfl, fun d n other => ?_⟩
    rw [located] at other
    cases other
    rfl
  have replaced : (inTurn twoCalls oldFile order).2 = [true, false] := by decide +kernel
  refine ⟨leads, ?_, by decide +kernel⟩
  rw [← replaced]
  exact concurrent_writes_unmixed leads (reaches_inTurn twoCalls oldFile order)

end CInterface.AtomicWrite
