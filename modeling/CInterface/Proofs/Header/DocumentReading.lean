import CInterface.Proofs.Header.Numbers
import CInterface.Proofs.Json.IntegerSize
import CInterface.Proofs.Writer.Printing

/-!
# The document of a header read back

The document of a header tells all of the header: read back member by member, with the members that may be missing
standing for nothing, it gives the same header. Its text is ASCII and is read back as the document, however it is
indented. There is a text unless a number in the document has too many digits, for every indent that fits into 64 bits
and whose blanks fit into memory.
-/

namespace CInterface

open Decimal (digitCount maxDigits)
open Json (Value Members Plain Ascii)
open Source (Location)

namespace Json

namespace Value

def string? : Value → Option String
  | .string s => some s
  | _ => none

def int? : Value → Option Int
  | .int n => some n
  | _ => none

def bool? : Value → Option Bool
  | .bool b => some b
  | _ => none

def members? : Value → Option Members
  | .object members => some members
  | _ => none

/-- The items of an array, each of which is read. -/
def listOf? {α : Type} (read : Value → Option α) : Value → Option (List α)
  | .array items => items.mapM read
  | _ => none

end Value

/-- A member that has to be there. -/
def Members.required? {α : Type} (members : Members) (name : String) (read : Value → Option α) : Option α :=
  (members.find? name).bind read

/-- A member that stands for a value of its own when it is missing. -/
def Members.optional? {α : Type} (members : Members) (name : String) (missing : α) (read : Value → Option α) :
    Option α :=
  match members.find? name with
  | none => some missing
  | some v => read v

end Json

open Json

def qualifiersOf? (members : Members) : Option (List String) :=
  members.optional? "qualifiers" [] (Value.listOf? Value.string?)

mutual

/-- The type that a document is of. -/
def CType.ofDocument? : Value → Option CType
  | .object members =>
    match Members.required? members "kind" Value.string? with
    | some "ctype" => do
      let name ← Members.required? members "name" Value.string?
      return .base ⟨name, ← qualifiersOf? members, ← Members.optional? members "opaque" false Value.bool?⟩
    | some "pointer" => do
      let pointee ← pointeeOf? members
      return .pointer pointee (← qualifiersOf? members)
    | _ => none
  | _ => none

/-- The type under the first member that is named as a pointee. -/
def pointeeOf? : Members → Option CType
  | [] => none
  | (name, v) :: members => if name = "pointee" then CType.ofDocument? v else pointeeOf? members

end

def locationOf? (members : Members) : Option (Option Location) :=
  members.optional? "location" none fun v => do
    let place ← v.members?
    let file ← place.required? "file" Value.string?
    let line ← place.required? "line" Value.int?
    let column ← place.optional? "column" none fun n => n.int?.map some
    return some ⟨file, line, column⟩

def Slot.ofDocument? (v : Value) : Option Slot := do
  let members ← v.members?
  return ⟨← members.required? "name" Value.string?, ← members.required? "type" CType.ofDocument?⟩

def Enumerator.ofDocument? (v : Value) : Option Enumerator := do
  let members ← v.members?
  return ⟨← members.required? "name" Value.string?, ← members.optional? "value" none fun n => n.int?.map some⟩

def Typedef.ofDocument? (v : Value) : Option Typedef := do
  let members ← v.members?
  return ⟨← members.required? "name" Value.string?, ← members.required? "type" CType.ofDocument?,
    ← locationOf? members⟩

def EnumDefinition.ofDocument? (v : Value) : Option EnumDefinition := do
  let members ← v.members?
  return ⟨← members.required? "name" Value.string?,
    ← members.required? "values" (Value.listOf? Enumerator.ofDocument?), ← locationOf? members⟩

def StructDefinition.ofDocument? (v : Value) : Option StructDefinition := do
  let members ← v.members?
  return ⟨← members.required? "name" Value.string?, ← members.required? "fields" (Value.listOf? Slot.ofDocument?),
    ← locationOf? members⟩

def Prototype.ofDocument? (v : Value) : Option Prototype := do
  let members ← v.members?
  return ⟨← members.required? "name" Value.string?, ← members.required? "return_type" CType.ofDocument?,
    ← members.required? "parameters" (Value.listOf? Slot.ofDocument?), ← locationOf? members⟩

/-- The header that a document is of. -/
def Header.ofDocument? (v : Value) : Option Header := do
  let members ← v.members?
  return ⟨← members.required? "target" Value.string?,
    ← members.required? "typedefs" (Value.listOf? Typedef.ofDocument?),
    ← members.required? "enums" (Value.listOf? EnumDefinition.ofDocument?),
    ← members.required? "structs" (Value.listOf? StructDefinition.ofDocument?),
    ← members.required? "functions" (Value.listOf? Prototype.ofDocument?)⟩

section Members

variable {α : Type} (name : String) (v : Value) (members : Members) (other : String) (missing : α)
  (read : Value → Option α)

/-- Members are found by their names alone. -/
theorem Json.Members.find?_cons :
    Members.find? ((name, v) :: members) other = if other = name then some v else members.find? other := by
  by_cases h : other = name
  · simp [Members.find?, h]
  · simp [Members.find?, List.lookup_cons, h, beq_false_of_ne h]

@[simp] theorem Json.Members.required?_cons :
    Members.required? ((name, v) :: members) other read
      = if other = name then read v else members.required? other read := by
  rw [Members.required?, Members.find?_cons]
  split <;> rfl

@[simp] theorem Json.Members.optional?_cons :
    Members.optional? ((name, v) :: members) other missing read
      = if other = name then read v else members.optional? other missing read := by
  by_cases h : other = name <;> simp [Members.optional?, Members.find?_cons, h]

@[simp] theorem Json.Members.optional?_nil : Members.optional? [] other missing read = some missing := rfl

@[simp] theorem locationOf?_cons (h : "location" ≠ name) :
    locationOf? ((name, v) :: members) = locationOf? members := by
  rw [locationOf?, Members.optional?_cons, if_neg h, locationOf?]

end Members

attribute [simp] Value.string? Value.int? Value.bool? Value.members?

/-- A list is read back if each of its items is. -/
@[simp] theorem listOf?_map {α : Type} {f : α → Value} {read : Value → Option α} (h : ∀ x, read (f x) = some x)
    (xs : List α) : Value.listOf? read (.array (xs.map f)) = some xs := by
  rw [Value.listOf?]
  induction xs with
  | nil => rfl
  | cons x xs ih => simp [h, ih]

theorem qualifierMember_cases (qualifiers : List String) :
    qualifiers = [] ∧ qualifierMember qualifiers = [] ∨
      qualifierMember qualifiers = [("qualifiers", .array (qualifiers.map .string))] := by
  cases qualifiers with
  | nil => exact .inl ⟨rfl, rfl⟩
  | cons q qs => exact .inr rfl

@[simp] theorem listOf?_strings (strings : List String) :
    Value.listOf? Value.string? (.array (strings.map .string)) = some strings :=
  listOf?_map (f := .string) (fun _ => rfl) strings

theorem BaseType.ofDocument?_document (b : BaseType) : CType.ofDocument? b.document = some (.base b) := by
  obtain ⟨name, qualifiers, isIncomplete⟩ := b
  obtain ⟨rfl, member⟩ | member := qualifierMember_cases qualifiers <;> cases isIncomplete <;>
    simp [BaseType.document, member, CType.ofDocument?, qualifiersOf?]

@[simp] theorem CType.ofDocument?_document (t : CType) : CType.ofDocument? t.document = some t := by
  induction t with
  | base b => exact b.ofDocument?_document
  | pointer pointee qualifiers ih =>
    obtain ⟨rfl, member⟩ | member := qualifierMember_cases qualifiers <;>
      simp [CType.document, pointerDocument, member, CType.ofDocument?, pointeeOf?, qualifiersOf?, ih]

@[simp] theorem locationOf?_locationMember (location : Option Location) :
    locationOf? (locationMember location) = some location := by
  cases location with
  | none => rfl
  | some l => obtain ⟨file, line, _ | column⟩ := l <;> simp [locationOf?, locationMember]

@[simp] theorem Slot.ofDocument?_document (s : Slot) : Slot.ofDocument? s.document = some s := by
  simp [Slot.ofDocument?, Slot.document]

@[simp] theorem Enumerator.ofDocument?_document (v : Enumerator) : Enumerator.ofDocument? v.document = some v := by
  obtain ⟨name, _ | n⟩ := v <;> simp [Enumerator.ofDocument?, Enumerator.document]

@[simp] theorem Typedef.ofDocument?_document (d : Typedef) : Typedef.ofDocument? d.document = some d := by
  simp [Typedef.ofDocument?, Typedef.document]

@[simp] theorem EnumDefinition.ofDocument?_document (d : EnumDefinition) :
    EnumDefinition.ofDocument? d.document = some d := by
  simp [EnumDefinition.ofDocument?, EnumDefinition.document]

@[simp] theorem StructDefinition.ofDocument?_document (d : StructDefinition) :
    StructDefinition.ofDocument? d.document = some d := by
  simp [StructDefinition.ofDocument?, StructDefinition.document]

@[simp] theorem Prototype.ofDocument?_document (d : Prototype) : Prototype.ofDocument? d.document = some d := by
  simp [Prototype.ofDocument?, Prototype.document]

/-- The document of a header is of that header. -/
theorem Header.ofDocument?_document (h : Header) : Header.ofDocument? h.document = some h := by
  simp [Header.ofDocument?, Header.document]

attribute [simp] Plain.string Plain.int Plain.bool

@[simp] theorem plain_array {α : Type} {f : α → Value} (h : ∀ x, Plain (f x)) (xs : List α) :
    Plain (.array (xs.map f)) := by
  refine .array fun v hv => ?_
  obtain ⟨x, -, rfl⟩ := List.mem_map.1 hv
  exact h x

@[simp] theorem plain_strings (strings : List String) : Plain (.array (strings.map .string)) :=
  plain_array (f := .string) Plain.string strings

theorem BaseType.plain_document (b : BaseType) : Plain b.document := by
  obtain ⟨name, qualifiers, isIncomplete⟩ := b
  obtain ⟨rfl, member⟩ | member := qualifierMember_cases qualifiers <;> cases isIncomplete <;>
    exact .object (by simp [member]) (by simp [member])

@[simp] theorem CType.plain_document (t : CType) : Plain t.document := by
  induction t with
  | base b => exact b.plain_document
  | pointer pointee qualifiers ih =>
    obtain ⟨rfl, member⟩ | member := qualifierMember_cases qualifiers <;>
      exact .object (by simp [member]) (by simp [member, ih])

/-- A location is told by a plain member of its own name, or by none. -/
theorem plain_location {members : Members} (distinct : (members.map Prod.fst).Nodup)
    (other : "location" ∉ members.map Prod.fst) (h : ∀ m ∈ members, Plain m.2) (location : Option Location) :
    Plain (.object (members ++ locationMember location)) := by
  cases location with
  | none => exact .object (by simpa [locationMember] using distinct) (by simpa [locationMember] using h)
  | some l =>
    have place : ∀ m ∈ locationMember (some l), Plain m.2 := by
      obtain ⟨file, line, _ | column⟩ := l <;> exact List.forall_mem_singleton.2 (.object (by simp) (by simp))
    refine .object ?_ ?_
    · rw [List.map_append, List.nodup_append]
      refine ⟨distinct, by simp [locationMember], ?_⟩
      rintro name hn _ hl rfl
      obtain rfl : name = "location" := by simpa [locationMember] using hl
      exact other hn
    · intro m hm
      obtain hm | hm := List.mem_append.1 hm
      · exact h m hm
      · exact place m hm

@[simp] theorem Slot.plain_document (s : Slot) : Plain s.document := .object (by simp) (by simp)

@[simp] theorem Enumerator.plain_document (v : Enumerator) : Plain v.document := by
  obtain ⟨name, _ | n⟩ := v <;> exact .object (by simp) (by simp)

@[simp] theorem Typedef.plain_document (d : Typedef) : Plain d.document :=
  plain_location (by simp) (by simp) (by simp) d.location

@[simp] theorem EnumDefinition.plain_document (d : EnumDefinition) : Plain d.document :=
  plain_location (by simp) (by simp) (by simp) d.location

@[simp] theorem StructDefinition.plain_document (d : StructDefinition) : Plain d.document :=
  plain_location (by simp) (by simp) (by simp) d.location

@[simp] theorem Prototype.plain_document (d : Prototype) : Plain d.document :=
  plain_location (by simp) (by simp) (by simp) d.location

theorem Header.plain_document (h : Header) : Plain h.document := .object (by simp) (by simp)

/-- The style of an indent: one line without one, or a number of blanks, none for a negative number. -/
def Json.Style.ofIndent : Option Int → Style
  | none => .compact
  | some n => .indented (String.ofList (List.replicate n.toNat ' '))

theorem Json.Style.blank_ofIndent (indent : Option Int) : (Style.ofIndent indent).Blank := by
  cases indent with
  | none => trivial
  | some n => simp [ofIndent, Blank]

section

variable [Memory] {indent : Option Int}

/-- The indents that can be written with are none at all and the integers of 64 bits whose blanks fit into memory. -/
theorem Indent.style_ofOptions {style : Json.Style} :
    (ofOptions [("indent", (indent.map Value.int).getD .null)]).style = .ok style ↔
      (∀ n ∈ indent, -bound ≤ n ∧ n ≤ Memory.blanks) ∧ .ofIndent indent = style := by
  cases indent with
  | none =>
    have given : (ofOptions [("indent", .null)]).style = .ok .compact := rfl
    simp [given, Json.Style.ofIndent]
  | some n =>
    have given : ofOptions [("indent", .int n)] = .blanks n := rfl
    have few : (Memory.blanks : Int) < bound := Memory.blanks_lt
    simp only [Option.map_some, Option.getD_some, given, Indent.style, Option.mem_some_iff, forall_eq']
    split
    · exact iff_of_false (by simp) (by omega)
    split
    · exact iff_of_false (by simp) (by omega)
    · rw [Except.ok.injEq, Json.Style.ofIndent]
      exact (and_iff_right (by omega)).symm

theorem Indent.style_ne_oversized (i : Indent) : i.style ≠ .error .oversized := by
  cases i with
  | blanks n =>
    rw [style]
    split
    · simp
    split <;> simp
  | _ => simp [style]

end

namespace Header

/-- The document of a header is of that header, and so the header read back is written as the same text in C. The
document is written unless the indent is no integer of 64 bits or its blanks do not fit into memory, or else a number
has too many digits. Its text is ASCII and is read back as the document, with the line end of the writer or without. -/
theorem document_round_trip [Memory] (h : Header) (indent : Option Int) (environment : Option String) :
    let written := (Writer.json (.ofOptions [("indent", (indent.map Value.int).getD .null)])).write environment h
    let indented := ∀ n ∈ indent, -Indent.bound ≤ n ∧ n ≤ Memory.blanks
    ofDocument? h.document = some h ∧
      (∀ guard guardPrefix, (ofDocument? h.document).map ((Writer.c guard guardPrefix).write environment)
        = some ((Writer.c guard guardPrefix).write environment h)) ∧
      (∀ text, written = .ok text ↔
        indented ∧ h.document.Sized ∧ h.document.text (.ofIndent indent) ++ "\n" = text) ∧
      (written = .error .oversized ↔ indented ∧ ¬ h.document.Sized) ∧
      ∀ text, written = .ok (text ++ "\n") →
        Ascii text.toList ∧ ∀ ending ∈ ["", "\n"], Json.parse (text ++ ending) = .ok h.document := by
  intro written indented
  have ok (text : String) : written = .ok text ↔
      indented ∧ h.document.Sized ∧ h.document.text (.ofIndent indent) ++ "\n" = text := by
    rw [Writer.write_json_ok]
    simp only [Indent.style_ofOptions, and_assoc, exists_and_left, exists_eq_left']
    exact Iff.rfl
  refine ⟨ofDocument?_document h, fun guard guardPrefix => ?_, ok, ?_, fun text h' => ?_⟩
  · rw [ofDocument?_document h, Option.map_some]
  · rw [Writer.write_json_error, or_iff_right (Indent.style_ne_oversized _)]
    simp only [Indent.style_ofOptions, and_true, exists_and_left, exists_eq', indented]
  · have blank := Json.Style.blank_ofIndent indent
    obtain ⟨-, sized, same⟩ := (ok _).1 h'
    obtain rfl : h.document.text (.ofIndent indent) = text := by simpa using same
    refine ⟨h.plain_document.ascii_render blank 0, fun ending hending => ?_⟩
    have spaces : ∀ c ∈ ending.toList, isSpace c = true := by
      simp only [List.mem_cons, List.not_mem_nil, or_false] at hending
      obtain rfl | rfl := hending
      · simp
      · simp [isSpace]
    exact h.plain_document.parse_text blank sized ending spaces

theorem not_sized_ofNumber : ¬ (ofNumber (Nat.pow 10 maxDigits)).document.Sized := fun sized =>
  Nat.not_le.2 (lt_digitCount_power (by decide)) (sized _ (mem_integers_of_mem_values (mem_values_ofNumber _)))

/-- With an indent below the integers of 64 bits nothing is written, and neither is a number of one digit too many. -/
theorem not_round_trip :
    (¬ ∃ text, (Writer.json (.ofOptions [("indent", .int (-9223372036854775809))])).write none
        ⟨"empty.h", [], [], [], []⟩ = .ok text) ∧
      ¬ ∃ text, (Writer.json (.ofOptions [])).write none (ofNumber (Nat.pow 10 maxDigits)) = .ok text := by
  constructor
  · rintro ⟨text, h⟩
    cases h
  · rintro ⟨text, h⟩
    obtain ⟨-, -, sized, -⟩ := Writer.write_json_ok.1 h
    exact not_sized_ofNumber sized

end Header

end CInterface
