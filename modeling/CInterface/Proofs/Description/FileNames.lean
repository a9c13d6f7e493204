import CInterface.Proofs.Description.Format
import CInterface.Text.DecimalDigit

/-!
# Errors and the names of their files

A message about a description starts with the name of its file and does not say it twice. This rests on the text of the
message: what is wrong with a declaration is told without the file first, and the name is put in front unless the text
already starts with it. So the name is missing where a file is called like the beginning of such a text.
-/

namespace CInterface.Description

def StartsWith (text start : String) : Prop := ∃ rest, text = start ++ rest

/-- The name of the file and a colon stand in front of a message, and what follows does not start with them again. -/
def NamesOnce (filename message : String) : Prop :=
  ∃ detail, message = filename ++ ": " ++ detail ∧ ¬ StartsWith detail (filename ++ ": ")

/-- What is wrong with a declaration, as it is told without the file. -/
def Error.declarationText? : Error → Option String
  | .topLevel => none
  | .fault .document _ => none
  | .fault place cause => some (place.text "" ++ ": " ++ cause.message)

variable {filename text : String} {e : Error} {cause : Cause}

theorem startsWith_iff {start : String} : StartsWith text start ↔ start.toList <+: text.toList := by
  constructor
  · rintro ⟨rest, rfl⟩
    exact ⟨rest.toList, String.toList_append.symm⟩
  · rintro ⟨rest, same⟩
    exact ⟨String.ofList rest, String.toList_inj.1 (by simp [← same])⟩

theorem inFile_of_startsWith (h : StartsWith text filename) : inFile filename text = text :=
  if_pos (List.isPrefixOf_iff_prefix.2 (startsWith_iff.1 h))

theorem inFile_of_not (h : ¬ StartsWith text filename) : inFile filename text = filename ++ ": " ++ text :=
  if_neg fun begins => h (startsWith_iff.2 (List.isPrefixOf_iff_prefix.1 begins))

theorem namesOnce_inFile_of_not (h : ¬ StartsWith text filename) : NamesOnce filename (inFile filename text) := by
  refine ⟨text, inFile_of_not h, ?_⟩
  rintro ⟨rest, rfl⟩
  exact h ⟨": " ++ rest, by rw [String.append_assoc]⟩

/-- A detail without a colon does not say the name again. -/
theorem namesOnce_of_plain {detail : String} (plain : ':' ∉ detail.toList) :
    NamesOnce filename (filename ++ ": " ++ detail) := by
  refine ⟨detail, rfl, ?_⟩
  rintro ⟨rest, rfl⟩
  simp at plain

/-! ## What can be wrong with a document apart from its declarations -/

inductive DocumentCause : Cause → Prop
  | member {key : String} (known : key = "module" ∨ key = "declarations") (expected actual : Shape) :
      DocumentCause (.wrongShape key expected actual)
  | item (index : Nat) : DocumentCause (.itemShape "declarations" index)

theorem colon_not_mem_word (shape : Shape) : ':' ∉ shape.word.toList := by
  cases shape <;> simp [Shape.word]

theorem colon_not_mem_repr (n : Nat) : ':' ∉ n.repr.toList := by
  intro h
  rw [Nat.toList_repr] at h
  exact absurd (Nat.isDigit_of_mem_toDigits (by decide) (by decide) h) (by decide)

theorem colon_not_mem_quoted {key : String} (known : key = "module" ∨ key = "declarations") :
    ':' ∉ (Text.quoted key).toList := by
  obtain rfl | rfl := known
  · decide +kernel
  · decide +kernel

theorem message_wrongShape (key : String) (expected actual : Shape) :
    (Cause.wrongShape key expected actual).message =
      Text.quoted key ++ " must be " ++ expected.word ++ ", got " ++ actual.word := rfl

theorem message_itemShape (key : String) (index : Nat) :
    (Cause.itemShape key index).message = key ++ "[" ++ toString index ++ "] must be an object" := rfl

theorem DocumentCause.colon_not_mem (h : DocumentCause cause) : ':' ∉ cause.message.toList := by
  cases h with
  | member known expected actual =>
    simp only [message_wrongShape, String.toList_append, List.mem_append, not_or]
    exact ⟨⟨⟨⟨colon_not_mem_quoted known, by decide⟩, colon_not_mem_word expected⟩, by decide⟩,
      colon_not_mem_word actual⟩
  | item index =>
    simp only [message_itemShape, String.toList_append, List.mem_append, not_or]
    exact ⟨⟨⟨by decide, by decide⟩, colon_not_mem_repr index⟩, by decide⟩

section

variable {α : Type} {view : View α} {members : Json.Members} {key : String}

theorem View.read_error {v : Json.Value} (h : view.read key v = .error cause) :
    cause = .wrongShape key view.shape (.of v) := by
  rw [View.read] at h
  split at h
  · contradiction
  · exact (Except.error.inj h).symm

theorem optional_error (h : optional members key view = .error cause) :
    ∃ actual, cause = .wrongShape key view.shape actual := by
  obtain absent | ⟨v, found, given⟩ := absent_or_given members key
  · rw [optional_absent absent] at h
    contradiction
  · rw [optional_given found given, except_map_error] at h
    exact ⟨_, View.read_error h⟩

theorem objects_error {index : Nat} {items : List Json.Value} (h : objects key index items = .error cause) :
    ∃ place, cause = .itemShape key place := by
  induction items generalizing index with
  | nil => contradiction
  | cons item items ih =>
    cases item with
    | object ms =>
      rw [objects, except_map_error] at h
      exact ih h
    | _ => exact ⟨index, (Except.error.inj h).symm⟩

theorem objectList_error (h : objectList members key = .error cause) :
    (∃ actual, cause = .wrongShape key .list actual) ∨ ∃ place, cause = .itemShape key place := by
  rw [objectList, except_bind_error] at h
  obtain list | ⟨items, -, item⟩ := h
  · exact .inl (optional_error list)
  · exact .inr (objects_error item)

end

theorem readDeclaration_error {index : Nat} {members : Json.Members} (h : readDeclaration index members = .error e) :
    ∃ text, e.declarationText? = some text := by
  simp only [readDeclaration, except_bind_error, except_mapError_error] at h
  obtain ⟨cause, -, rfl⟩ | ⟨kind, -, ⟨cause, -, rfl⟩ | ⟨name, -, cause, -, rfl⟩⟩ := h
  all_goals exact ⟨_, rfl⟩

theorem readDeclarations_error {index : Nat} {all : List Json.Members} (h : readDeclarations index all = .error e) :
    ∃ text, e.declarationText? = some text := by
  induction all generalizing index with
  | nil => contradiction
  | cons members rest ih =>
    simp only [readDeclarations, except_bind_error] at h
    obtain first | ⟨d, -, others | ⟨ds, -, none⟩⟩ := h
    · exact readDeclaration_error first
    · exact ih others
    · contradiction

/-- An error is that no object was given, or is about a member of the document, or about a declaration. -/
theorem readModule_error {v : Json.Value} (h : readModule filename v = .error e) :
    e = .topLevel ∨ (∃ cause, e = .fault .document cause ∧ DocumentCause cause) ∨
      ∃ text, e.declarationText? = some text := by
  cases v with
  | object members =>
    simp only [readModule, except_bind_error, except_mapError_error] at h
    obtain ⟨cause, path, rfl⟩ | ⟨_, -, ⟨cause, list, rfl⟩ | ⟨all, -, declaration | ⟨ds, -, none⟩⟩⟩ := h
    · obtain ⟨actual, rfl⟩ := optional_error path
      exact .inr (.inl ⟨_, rfl, .member (.inl rfl) _ _⟩)
    · refine .inr (.inl ⟨_, rfl, ?_⟩)
      obtain ⟨actual, rfl⟩ | ⟨place, rfl⟩ := objectList_error list
      · exact .member (.inr rfl) _ _
      · exact .item place
    · exact .inr (.inr (readDeclarations_error declaration))
    · contradiction
  | _ => exact .inl (Except.error.inj h).symm

/-! ## Messages -/

theorem message_topLevel : Error.topLevel.message filename = filename ++ ": " ++ "top level must be an object" := by
  rw [String.append_assoc]
  rfl

theorem message_document (cause : Cause) :
    (Error.fault .document cause).message filename = filename ++ ": " ++ cause.message :=
  inFile_of_startsWith ⟨": " ++ cause.message, String.append_assoc⟩

/-- An error that is not about a declaration names its file. -/
theorem namesOnce_of_document {v : Json.Value} (h : readModule filename v = .error e)
    (document : e.declarationText? = none) : NamesOnce filename (e.message filename) := by
  obtain rfl | ⟨cause, rfl, known⟩ | ⟨text, about⟩ := readModule_error h
  · rw [message_topLevel]
    exact namesOnce_of_plain (by decide)
  · rw [message_document]
    exact namesOnce_of_plain known.colon_not_mem
  · rw [about] at document
    contradiction

theorem message_of_declarationText (h : e.declarationText? = some text) : e.message filename = inFile filename text := by
  cases e with
  | topLevel => contradiction
  | fault place cause =>
    cases place with
    | document => contradiction
    | declaration index => exact congrArg (inFile filename) (Option.some.inj h)
    | named index name => exact congrArg (inFile filename) (Option.some.inj h)

theorem StartsWith.append {start : String} (h : StartsWith text start) (more : String) :
    StartsWith (text ++ more) start := by
  obtain ⟨rest, rfl⟩ := h
  exact ⟨rest ++ more, String.append_assoc⟩

/-- What is wrong with a declaration starts with its place. -/
theorem declarationText_starts (h : e.declarationText? = some text) :
    ∃ index : Nat, StartsWith text ("declarations[" ++ index.repr) := by
  cases e with
  | topLevel => contradiction
  | fault place cause =>
    cases place with
    | document => contradiction
    | declaration index =>
      cases h
      exact ⟨index, .append (.append ⟨"]", rfl⟩ ": ") cause.message⟩
    | named index name =>
      cases h
      exact ⟨index, .append (.append (.append (.append ⟨"] (", rfl⟩ name) ")") ": ") cause.message⟩

/-- A text that starts with a short name does not name the file, since the place of the declaration goes on behind. -/
theorem not_namesOnce_of_start (short : StartsWith "declarations[" filename) (h : e.declarationText? = some text) :
    ¬ NamesOnce filename text := by
  rintro ⟨detail, rfl, -⟩
  obtain ⟨index, place⟩ := declarationText_starts h
  obtain ⟨rest, whole⟩ := short
  -- the colon behind the name falls into the place, which has none
  have colon : (filename ++ ":").toList <+: ("declarations[" ++ index.repr).toList := by
    have front : (filename ++ ":").toList <+: (filename ++ ": " ++ detail).toList := by simp
    refine List.prefix_of_prefix_length_le front (startsWith_iff.1 place) ?_
    have digits : 0 < index.repr.length := Nat.length_repr_pos
    rw [whole, String.length_toList, String.length_toList]
    simp only [String.length_append]
    have one : ":".length = 1 := rfl
    omega
  have mem : ':' ∈ ("declarations[" ++ index.repr).toList := colon.subset (by simp)
  rw [String.toList_append, List.mem_append] at mem
  obtain word | number := mem
  · exact absurd word (by decide)
  · exact colon_not_mem_repr index number

/-- Neither does the message, which is that text. -/
theorem not_namesOnce_message (short : StartsWith "declarations[" filename) (h : e.declarationText? = some text) :
    ¬ NamesOnce filename (e.message filename) := by
  have begins : StartsWith text filename := by
    obtain ⟨rest, whole⟩ := short
    obtain ⟨index, rest', rfl⟩ := declarationText_starts h
    exact ⟨rest ++ (index.repr ++ rest'), by rw [whole]; simp only [String.append_assoc]⟩
  rw [message_of_declarationText h, inFile_of_startsWith begins]
  exact not_namesOnce_of_start short h

theorem not_startsWith_of_other (h : e.declarationText? = some text) (shorter : ¬ StartsWith "declarations[" filename)
    (longer : ¬ StartsWith filename "declarations[") : ¬ StartsWith text filename := by
  intro begins
  obtain ⟨index, rest, place⟩ := declarationText_starts h
  have start : StartsWith text "declarations[" := ⟨index.repr ++ rest, by rw [place, String.append_assoc]⟩
  obtain h | h := List.prefix_or_prefix_of_prefix (startsWith_iff.1 begins) (startsWith_iff.1 start)
  · exact shorter (startsWith_iff.2 h)
  · exact longer (startsWith_iff.2 h)

/-- An error names its file once, unless it is about a declaration and what it says of that starts with the name: then
that text alone is the message. So it does for every file but those whose name starts with `declarations[` or is a
beginning of that, and with one of the latter, which may be empty, it does for no error about a declaration. -/
theorem error_names_file_iff {v : Json.Value} (h : readModule filename v = .error e) :
    (NamesOnce filename (e.message filename) ↔
        ∀ text, e.declarationText? = some text → StartsWith text filename → NamesOnce filename text) ∧
      (¬ StartsWith "declarations[" filename → ¬ StartsWith filename "declarations[" →
        NamesOnce filename (e.message filename)) ∧
      (StartsWith "declarations[" filename → e.declarationText? ≠ none → ¬ NamesOnce filename (e.message filename)) := by
  cases about : e.declarationText? with
  | none =>
    have names := namesOnce_of_document h about
    exact ⟨iff_of_true names nofun, fun _ _ => names, fun _ some => absurd rfl some⟩
  | some text =>
    rw [message_of_declarationText about]
    simp only [Option.some.injEq, forall_eq']
    refine ⟨?_, fun shorter longer => namesOnce_inFile_of_not (not_startsWith_of_other about shorter longer), ?_⟩
    · by_cases begins : StartsWith text filename
      · rw [inFile_of_startsWith begins]
        exact ⟨fun h _ => h, fun h => h begins⟩
      · exact iff_of_true (namesOnce_inFile_of_not begins) fun h => absurd h begins
    · intro short _
      rw [← message_of_declarationText about]
      exact not_namesOnce_message short about

/-- A struct without a name. -/
def unnamed : Json.Value := .object [("declarations", .array [.object [("kind", .string "struct")]])]

theorem readModule_unnamed (filename : String) :
    readModule filename unnamed = .error (.fault (.declaration 0) (.missing "name")) := rfl

/-- The name of the file is the number of another declaration. -/
theorem error_names_file_declarationsOne :
    readModule "declarations[1]" unnamed = .error (.fault (.declaration 0) (.missing "name")) ∧
      NamesOnce "declarations[1]" ((Error.fault (.declaration 0) (.missing "name")).message "declarations[1]") := by
  refine ⟨readModule_unnamed _, (error_names_file_iff (readModule_unnamed _)).1.2 fun text about begins => ?_⟩
  rw [← Option.some.inj about, startsWith_iff] at begins
  exact absurd begins (by decide +kernel)

/-- In a file called `declarations` the message does not name the file. -/
theorem not_namesOnce_declarations :
    readModule "declarations" unnamed = .error (.fault (.declaration 0) (.missing "name")) ∧
      ¬ NamesOnce "declarations" ((Error.fault (.declaration 0) (.missing "name")).message "declarations") :=
  ⟨readModule_unnamed _, not_namesOnce_message ⟨"[", rfl⟩ rfl⟩

end CInterface.Description
