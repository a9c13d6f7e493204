import CInterface.Guard
import CInterface.Proofs.FilePath.LastComponent
import CInterface.Proofs.Text.Identifiers

/-!
# Derived guards

A guard is derived from two names: the prefix in force and the last component of its target. Whatever the target and
the environment hold, it is an identifier; directories do not count, and neither does the environment if a prefix is
given.
-/

namespace CInterface

open Text

/-! ## The prefix in force -/

namespace Guard

/-- The prefix in force is the one that is given, or else the identifier that the environment holds, or else the usual
one. -/
inductive InForce : Option String → Option String → String → Prop
  | given (name : String) (environment : Option String) : InForce (some name) environment name
  | environment {value name : String} (h : Encloses value name) : InForce none (some value) name
  | usual {environment : Option String} (h : ∀ value, environment = some value → ∀ name, ¬ Encloses value name) :
      InForce none environment "abiheader_gen"

variable {given environment : Option String} {name : String}

theorem inForce_prefixInForce (given environment : Option String) :
    InForce given environment (prefixInForce given environment) := by
  cases given with
  | some name => exact .given name environment
  | none =>
    rw [prefixInForce, Option.getD_none]
    cases environment with
    | none => exact .usual nofun
    | some value =>
      rw [environmentPrefix, isIdentifierLine_trim]
      split
      · next identifier => exact .environment (encloses_iff.2 ⟨identifier, rfl⟩)
      · next none =>
        refine .usual fun value' same name held => none ?_
        cases same
        exact (encloses_iff.1 held).1

theorem inForce_iff : InForce given environment name ↔ name = prefixInForce given environment := by
  constructor
  · intro h
    cases h with
    | given => rfl
    | environment held =>
      obtain ⟨identifier, rfl⟩ := encloses_iff.1 held
      rw [prefixInForce, Option.getD_none, environmentPrefix, isIdentifierLine_trim, if_pos identifier]
    | usual none =>
      cases environment with
      | none => rfl
      | some value =>
        have other : ¬ isIdentifier (trim value) = true := fun h => none value rfl _ (encloses_iff.2 ⟨h, rfl⟩)
        rw [prefixInForce, Option.getD_none, environmentPrefix, isIdentifierLine_trim, if_neg other]
        rfl
  · rintro rfl
    exact inForce_prefixInForce given environment

theorem InForce.isIdentifier (h : InForce given environment name) (fine : ∀ name, given = some name →
    isIdentifier name = true) : isIdentifier name = true := by
  cases h with
  | given => exact fine name rfl
  | environment held => exact held.1
  | usual => decide

/-! ## The stem -/

/-- The stem of the last component of a target, with an underscore for each character that no identifier has. Targets
without components have a stem of their own. -/
inductive HasStem (target : String) : String → Prop
  | header (none : FilePath.components target = []) : HasStem target "header"
  | named {part cut : List Char} (last : (FilePath.components target).getLast? = some part)
      (stem : FilePath.IsStem part cut) : HasStem target (sanitized (String.ofList cut))

theorem hasStem_stem (target : String) : HasStem target (stem target) := by
  rw [stem, FilePath.stem, FilePath.name_eq, String.toList_ofList]
  cases last : (FilePath.components target).getLast? with
  | none => exact .header (List.getLast?_eq_none_iff.1 last)
  | some part =>
    have some := (FilePath.mem_components (List.mem_of_getLast? last)).1
    have cut := FilePath.isStem_iff.2 (rfl : FilePath.stemOf part = FilePath.stemOf part)
    rw [Option.getD_some, if_neg (by simpa using cut.ne_nil some)]
    exact .named last cut

theorem hasStem_iff {target s : String} : HasStem target s ↔ s = stem target := by
  constructor
  · intro h
    rw [stem, FilePath.stem, FilePath.name_eq, String.toList_ofList]
    cases h with
    | header none =>
      rw [none]
      rfl
    | @named part cut last isStem =>
      have some := (FilePath.mem_components (List.mem_of_getLast? last)).1
      rw [last, Option.getD_some, ← FilePath.isStem_iff.1 isStem, if_neg (by simpa using isStem.ne_nil some)]
  · intro same
    rw [same]
    exact hasStem_stem target

theorem HasStem.isWord {target s : String} (h : HasStem target s) : IsWord s := by
  cases h with
  | header => exact isWord_of_isIdentifier (by decide)
  | named => exact isWord_sanitized _

/-- Only the last component of a target counts. -/
theorem token_congr {target target' : String}
    (same : (FilePath.components target).getLast? = (FilePath.components target').getLast?) :
    token target given environment = token target' given environment := by
  simp only [token, stem, FilePath.stem, FilePath.name_eq, same]

theorem isIdentifier_token (target : String) (fine : ∀ name, given = some name → isIdentifier name = true) :
    isIdentifier (token target given environment) = true := by
  have start := (inForce_prefixInForce given environment).isIdentifier fine
  refine isIdentifier_append (isIdentifier_append (isIdentifier_append start ?_) (hasStem_stem target).isWord) ?_
  · exact isWord_of_isIdentifier (by decide)
  · exact isWord_of_isIdentifier (by decide)

/-- With no prefix given, or an identifier, a derived guard is an identifier: the prefix in force and the stem of the
target, with underscores between and a last `h`. It depends on no directory, and with a prefix given neither it nor what
is reported depends on the environment. -/
theorem token_derived (target : String) (fine : ∀ name, given = some name → isIdentifier name = true) :
    isIdentifier (token target given environment) = true ∧
      ((∃ name, InForce given environment name) ∧ (∃ stem, HasStem target stem) ∧
        ∀ name stem, InForce given environment name → HasStem target stem →
          token target given environment = name ++ "_" ++ stem ++ "_h") ∧
      (∀ target', (FilePath.components target').getLast? = (FilePath.components target).getLast? →
        token target' given environment = token target given environment) ∧
      (∀ part directory directory', part ≠ [] → part ≠ ['.'] → '/' ∉ part →
        token (directory ++ "/" ++ String.ofList part) given environment =
          token (directory' ++ "/" ++ String.ofList part) given environment) ∧
      (given ≠ none → ∀ environment', token target given environment' = token target given environment ∧
        events given environment' = events given environment) := by
  refine ⟨isIdentifier_token target fine,
    ⟨⟨_, inForce_prefixInForce given environment⟩, ⟨_, hasStem_stem target⟩, fun name stem inForce hasStem => ?_⟩,
    fun target' same => token_congr same, fun part directory directory' some other plain => token_congr ?_,
    fun some environment' => ?_⟩
  · rw [inForce_iff.1 inForce, hasStem_iff.1 hasStem, token]
  · simp [FilePath.components_append plain some other]
  · obtain ⟨name, rfl⟩ := Option.ne_none_iff_exists'.1 some
    exact ⟨rfl, rfl⟩

/-- A target with an empty component, a single dot and two suffixes. -/
theorem token_derived_archive :
    (∀ name, some "net" = some name → isIdentifier name = true) ∧
      token "lib//my-list.tar.h/." (some "net") (some "other") = "net_my_list_tar_h" := by
  have fine : ∀ name, some "net" = some name → isIdentifier name = true := by
    rintro _ ⟨⟩
    decide
  have last : (FilePath.components "lib//my-list.tar.h/.").getLast? = some ("my-list.tar".toList ++ '.' :: ['h']) := by
    decide
  have cut : FilePath.IsStem ("my-list.tar".toList ++ '.' :: ['h']) "my-list.tar".toList :=
    .cut (by decide) (by decide) (by decide)
  refine ⟨fine, ?_⟩
  rw [(token_derived _ fine).2.1.2.2 _ _ (.given "net" _) (.named last cut)]
  decide

end Guard

end CInterface
