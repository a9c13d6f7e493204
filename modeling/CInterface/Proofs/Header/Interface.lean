import CInterface.Proofs.Header.DeclaredBeforeUse
import CInterface.Proofs.Header.LineText

/-!
# The text of a header determines its interface

The lines of a header can be told apart, and those between the opening and the end of a block are those of its
content, so that the sections can be read back from the text. All that is lost is the target, the locations and what
is known of the layout of types.
-/

namespace CInterface

open Text

/-- Lines that hold no line end can be told apart. -/
theorem lines_inj {xs ys : List String} (hx : ∀ x ∈ xs, '\n' ∉ x.toList) (hy : ∀ y ∈ ys, '\n' ∉ y.toList)
    (same : xs.flatMap (fun x => x.toList ++ ['\n']) = ys.flatMap fun y => y.toList ++ ['\n']) : xs = ys := by
  induction xs generalizing ys with
  | nil => cases ys <;> simp_all
  | cons x xs ih =>
    cases ys with
    | nil => simp at same
    | cons y ys =>
      obtain ⟨hx, hxs⟩ := List.forall_mem_cons.1 hx
      obtain ⟨hy, hys⟩ := List.forall_mem_cons.1 hy
      simp only [List.flatMap_cons, List.append_assoc, List.singleton_append] at same
      obtain ⟨heads, tails⟩ := split_first hx hy same
      rw [String.toList_inj.1 heads, ih hxs hys tails]

theorem toList_lines {lines : List String} (some : lines ≠ []) :
    ("\n".intercalate lines ++ "\n").toList = lines.flatMap fun l => l.toList ++ ['\n'] := by
  induction lines with
  | nil => contradiction
  | cons l ls ih =>
    cases ls with
    | nil => simp
    | cons l' ls =>
      have rest := ih (by simp)
      rw [List.flatMap_cons, ← rest, String.intercalate_cons_cons]
      simp

def Typedef.bare (d : Typedef) : Typedef := { d with type := d.type.bare, location := none }

def EnumDefinition.bare (d : EnumDefinition) : EnumDefinition := { d with location := none }

def StructDefinition.bare (d : StructDefinition) : StructDefinition :=
  { d with fields := d.fields.map Slot.bare, location := none }

def Prototype.bare (d : Prototype) : Prototype :=
  { d with returnType := d.returnType.bare, parameters := d.parameters.map Slot.bare, location := none }

/-- A struct that is declared in advance, as a typedef. -/
def forwardSlot (name : String) : Slot := ⟨name, .base ⟨name, ["struct"], false⟩⟩

def closedShapes (shapes : List Shape) : List Shape := if shapes.isEmpty then [] else shapes ++ [.mark ""]

def Typedef.shape (d : Typedef) : Shape := .typedef ⟨d.name, d.type⟩

def EnumDefinition.shapes (d : EnumDefinition) : List Shape :=
  .opening "enum" d.name :: d.values.map .enumerator ++ [.closing d.name, .mark ""]

def StructDefinition.shapes (d : StructDefinition) : List Shape :=
  .opening "struct" d.name :: d.fields.map .field ++ [.closing d.name, .mark ""]

def Prototype.shape (d : Prototype) : Shape := .prototype ⟨d.name, d.returnType⟩ d.parameters

namespace Header

/-- The interface that a header describes: its declarations without the target, the locations and what is known of
the layout of types. -/
def interface (h : Header) : Header :=
  ⟨"", h.typedefs.map Typedef.bare, h.enumerations.map EnumDefinition.bare, h.structs.map StructDefinition.bare,
    h.prototypes.map Prototype.bare⟩

/-- The lines of the sections of a header. -/
def shapes (h : Header) : List Shape :=
  closedShapes (h.includes.map fun i => .mark i.directive)
    ++ closedShapes ((h.incompleteNames ++ h.earlyStructs).map (fun name => .typedef (forwardSlot name))
      ++ h.typedefs.map Typedef.shape)
    ++ h.enumerations.flatMap EnumDefinition.shapes
    ++ h.structs.flatMap StructDefinition.shapes
    ++ closedShapes (h.prototypes.map Prototype.shape)

end Header

theorem closedShapes_text (shapes : List Shape) :
    (closedShapes shapes).map Shape.text = Header.closed (shapes.map Shape.text) := by
  cases shapes with
  | nil => rfl
  | cons s shapes => simp [closedShapes, Header.closed, Shape.text]

theorem Typedef.shape_text (d : Typedef) : d.shape.text = d.line := by
  simp [shape, Shape.text, line, Slot.text, String.append_assoc]

theorem forwardSlot_text (name : String) : (Shape.typedef (forwardSlot name)).text = forwardLine name := by
  have type : (forwardSlot name).type.text = "struct" ++ " " ++ name := by
    rw [forwardSlot, CType.text, BaseType.text, if_neg (by simp), String.intercalate_singleton]
  have words : "typedef " ++ ("struct" ++ " ") = "typedef struct " := rfl
  calc (Shape.typedef (forwardSlot name)).text
      = "typedef " ++ ("struct" ++ " " ++ name ++ " " ++ name) ++ ";" :=
        congrArg (fun t => "typedef " ++ (t ++ " " ++ name) ++ ";") type
    _ = "typedef " ++ ("struct" ++ " ") ++ name ++ " " ++ name ++ ";" := by simp only [String.append_assoc]
    _ = forwardLine name := congrArg (fun start => start ++ name ++ " " ++ name ++ ";") words

theorem Prototype.shape_text (d : Prototype) : d.shape.text = d.line := by
  simp [shape, Shape.text, line, Slot.text, parametersText, String.append_assoc]

theorem EnumDefinition.shapes_text (d : EnumDefinition) : d.shapes.map Shape.text = Header.closed d.lines := by
  simp [shapes, Shape.text, lines, Header.closed, Function.comp_def]

theorem StructDefinition.shapes_text (d : StructDefinition) : d.shapes.map Shape.text = Header.closed d.lines := by
  simp [shapes, Shape.text, lines, Header.closed, Function.comp_def]

theorem Header.lines_eq (guard : String) (h : Header) :
    h.lines guard = opening guard ++ (h.shapes.map Shape.text ++ closing) := by
  have forwards : forwardLine = Shape.text ∘ fun name => .typedef (forwardSlot name) :=
    funext fun name => (forwardSlot_text name).symm
  have types : Typedef.line = Shape.text ∘ Typedef.shape := funext fun d => d.shape_text.symm
  have prototypes : Prototype.line = Shape.text ∘ Prototype.shape := funext fun d => d.shape_text.symm
  simp only [lines, shapes, typedefSection, forwards, types, prototypes, List.map_append, List.map_flatMap,
    List.map_map, closedShapes_text, EnumDefinition.shapes_text, StructDefinition.shapes_text, List.append_assoc]
  rfl

/-- What has been read of a header from its end on: the content of a block that has not been opened yet, and the
declarations behind it. -/
structure Draft extends Header where
  values : List Enumerator
  fields : List Slot

/-- Reads a line before those that have been read. -/
def Shape.read (shape : Shape) (d : Draft) : Draft :=
  match shape with
  | .mark _ | .closing _ => d
  | .typedef s =>
    if s = forwardSlot s.name then d else { d with typedefs := ⟨s.name, s.type, none⟩ :: d.typedefs }
  | .opening keyword name =>
    if keyword = "enum" then { d with values := [], enumerations := ⟨name, d.values, none⟩ :: d.enumerations }
    else { d with fields := [], structs := ⟨name, d.fields, none⟩ :: d.structs }
  | .enumerator v => { d with values := v :: d.values }
  | .field f => { d with fields := f :: d.fields }
  | .prototype result parameters =>
    { d with prototypes := ⟨result.name, result.type, parameters, none⟩ :: d.prototypes }

/-- Reads lines up to what has been read behind them. -/
def readShapes (shapes : List Shape) (d : Draft) : Draft := (shapes.map Shape.bare).foldr Shape.read d

namespace readShapes

variable (d : Draft)

theorem cons (s : Shape) (shapes : List Shape) : readShapes (s :: shapes) d = s.bare.read (readShapes shapes d) :=
  rfl

theorem append (xs ys : List Shape) : readShapes (xs ++ ys) d = readShapes xs (readShapes ys d) := by
  simp [readShapes]

theorem closed (shapes : List Shape) : readShapes (closedShapes shapes) d = readShapes shapes d := by
  cases shapes with
  | nil => rfl
  | cons s shapes => simp [closedShapes, readShapes, Shape.bare, Shape.read]

theorem marks {α : Type} (f : α → String) (xs : List α) : readShapes (xs.map fun x => .mark (f x)) d = d := by
  induction xs with
  | nil => rfl
  | cons x xs ih => exact ih

theorem forwards (names : List String) :
    readShapes (names.map fun name => .typedef (forwardSlot name)) d = d := by
  induction names with
  | nil => rfl
  | cons name names ih =>
    rw [List.map_cons, cons, ih]
    exact if_pos rfl

/-- A type that is not qualified as a struct makes no forward declaration. -/
theorem typedefs {ts : List Typedef} (h : ∀ t ∈ ts, ∀ name, t.type.bare ≠ (forwardSlot name).type) :
    readShapes (ts.map Typedef.shape) d = { d with typedefs := ts.map Typedef.bare ++ d.typedefs } := by
  induction ts with
  | nil => rfl
  | cons t ts ih =>
    obtain ⟨head, tail⟩ := List.forall_mem_cons.1 h
    rw [List.map_cons, cons, ih tail]
    exact if_neg fun same => head t.name (congrArg Slot.type same)

theorem enumerators (vs : List Enumerator) :
    readShapes (vs.map .enumerator) d = { d with values := vs ++ d.values } := by
  induction vs with
  | nil => rfl
  | cons v vs ih => rw [List.map_cons, cons, ih, Shape.bare, Shape.read, List.cons_append]

theorem fields (fs : List Slot) :
    readShapes (fs.map .field) d = { d with fields := fs.map Slot.bare ++ d.fields } := by
  induction fs with
  | nil => rfl
  | cons f fs ih => rw [List.map_cons, cons, ih, Shape.bare, Shape.read, List.map_cons, List.cons_append]

theorem enumerations (es : List EnumDefinition) (outside : d.values = []) :
    readShapes (es.flatMap EnumDefinition.shapes) d
      = { d with enumerations := es.map EnumDefinition.bare ++ d.enumerations } := by
  induction es with
  | nil => rfl
  | cons e es ih =>
    rw [List.flatMap_cons, append, ih, EnumDefinition.shapes, List.cons_append, cons, append, enumerators]
    simp [readShapes, Shape.bare, Shape.read, outside, EnumDefinition.bare]

theorem structs (ss : List StructDefinition) (outside : d.fields = []) :
    readShapes (ss.flatMap StructDefinition.shapes) d
      = { d with structs := ss.map StructDefinition.bare ++ d.structs } := by
  induction ss with
  | nil => rfl
  | cons s ss ih =>
    rw [List.flatMap_cons, append, ih, StructDefinition.shapes, List.cons_append, cons, append, fields]
    simp [readShapes, Shape.bare, Shape.read, outside, StructDefinition.bare]

theorem prototypes (ps : List Prototype) :
    readShapes (ps.map Prototype.shape) d = { d with prototypes := ps.map Prototype.bare ++ d.prototypes } := by
  induction ps with
  | nil => rfl
  | cons p ps ih =>
    rw [List.map_cons, cons, ih]
    rfl

end readShapes

/-- All names of a header are identifiers, and every level of a type is constant or unqualified. -/
structure Header.Identified (h : Header) : Prop where
  typedefs : ∀ d ∈ h.typedefs, isIdentifier d.name = true
  enumerations : ∀ d ∈ h.enumerations, isIdentifier d.name = true ∧ ∀ v ∈ d.values, isIdentifier v.name = true
  structs : ∀ d ∈ h.structs, isIdentifier d.name = true ∧ ∀ f ∈ d.fields, isIdentifier f.name = true
  prototypes : ∀ d ∈ h.prototypes, isIdentifier d.name = true ∧ ∀ p ∈ d.parameters, isIdentifier p.name = true
  types : ∀ t ∈ h.references, isIdentifier t.baseType.name = true ∧
    ∀ qualifiers ∈ t.qualifierLists, qualifiers = [] ∨ qualifiers = ["const"]

namespace Header

variable {h h' : Header}

theorem mem_references {i : Item} {t : CType} (hi : i ∈ h.items) (ht : t ∈ i.references) : t ∈ h.references :=
  List.mem_flatMap.2 ⟨i, hi, ht⟩

namespace Identified

theorem worded (ident : h.Identified) {t : CType} (ht : t ∈ h.references) : t.Worded :=
  CType.worded_of_const (isWord_of_isIdentifier (ident.types t ht).1) (ident.types t ht).2

theorem incompleteNames (ident : h.Identified) {name : String} (hn : name ∈ h.incompleteNames) : IsWord name := by
  obtain ⟨t, ht, rfl⟩ := List.mem_map.1 (List.mem_eraseDups.1 hn)
  exact isWord_of_isIdentifier (ident.types t (List.mem_filter.1 ht).1).1

theorem earlyStructs (ident : h.Identified) {name : String} (hn : name ∈ h.earlyStructs) : IsWord name := by
  obtain ⟨d, hd, rfl⟩ := List.mem_map.1 (earlyStructs_subset hn)
  exact isWord_of_isIdentifier (ident.structs d hd).1

end Identified

end Header

theorem mem_closedShapes {s : Shape} {shapes : List Shape} (hs : s ∈ closedShapes shapes) :
    s ∈ shapes ∨ s = .mark "" := by
  rw [closedShapes] at hs
  split at hs
  · contradiction
  · simpa using hs

theorem worded_forward {name : String} (word : IsWord name) : (Shape.typedef (forwardSlot name)).Worded :=
  ⟨word, word, .inr ⟨"struct", rfl, isWord_of_isIdentifier (by decide)⟩⟩

theorem worded_blank : (Shape.mark "").Worded := by simp [Shape.Worded]

theorem worded_directive (i : Include) : (Shape.mark i.directive).Worded := by
  cases i <;> simp [Shape.Worded, Include.directive, Include.file]

theorem worded_closing {text : String} (h : text ∈ Header.closing) : (Shape.mark text).Worded := by
  simp only [Header.closing, List.mem_cons, List.not_mem_nil, or_false] at h
  obtain rfl | rfl | rfl | rfl | rfl := h <;> simp [Shape.Worded]

namespace Header

variable {h h' : Header}

theorem Identified.worded_enumeration (ident : h.Identified) {e : EnumDefinition} (he : e ∈ h.enumerations) :
    ∀ s ∈ e.shapes, s.Worded := by
  obtain ⟨name, values⟩ := ident.enumerations e he
  intro s hs
  simp only [EnumDefinition.shapes, List.cons_append, List.mem_cons, List.mem_append, List.mem_map,
    List.not_mem_nil, or_false] at hs
  obtain rfl | ⟨v, hv, rfl⟩ | rfl | rfl := hs
  · exact ⟨isWord_of_isIdentifier (by decide), isWord_of_isIdentifier name⟩
  · exact isWord_of_isIdentifier (values v hv)
  · exact isWord_of_isIdentifier name
  · exact worded_blank

theorem Identified.worded_struct (ident : h.Identified) {d : StructDefinition} (hd : d ∈ h.structs) :
    ∀ s ∈ d.shapes, s.Worded := by
  obtain ⟨name, fields⟩ := ident.structs d hd
  have listed : .struct d ∈ h.items := by simp [items, hd]
  intro s hs
  simp only [StructDefinition.shapes, List.cons_append, List.mem_cons, List.mem_append, List.mem_map,
    List.not_mem_nil, or_false] at hs
  obtain rfl | ⟨f, hf, rfl⟩ | rfl | rfl := hs
  · exact ⟨isWord_of_isIdentifier (by decide), isWord_of_isIdentifier name⟩
  · exact ⟨isWord_of_isIdentifier (fields f hf), ident.worded (mem_references listed (List.mem_map_of_mem hf))⟩
  · exact isWord_of_isIdentifier name
  · exact worded_blank

theorem Identified.worded_typedef (ident : h.Identified) {d : Typedef} (hd : d ∈ h.typedefs) : d.shape.Worded :=
  have listed : .typedef d ∈ h.items := by simp [items, hd]
  ⟨isWord_of_isIdentifier (ident.typedefs d hd), ident.worded (mem_references listed List.mem_cons_self)⟩

theorem Identified.worded_prototype (ident : h.Identified) {d : Prototype} (hd : d ∈ h.prototypes) :
    d.shape.Worded := by
  obtain ⟨name, parameters⟩ := ident.prototypes d hd
  have listed : .prototype d ∈ h.items := by simp [items, hd]
  refine ⟨⟨isWord_of_isIdentifier name, ident.worded (mem_references listed List.mem_cons_self)⟩, fun p hp => ?_⟩
  have used : p.type ∈ (Item.prototype d).references := List.mem_cons_of_mem _ (List.mem_map_of_mem hp)
  exact ⟨isWord_of_isIdentifier (parameters p hp), ident.worded (mem_references listed used)⟩

theorem Identified.worded_shapes (ident : h.Identified) : ∀ s ∈ h.shapes, s.Worded := by
  have closed {shapes : List Shape} (worded : ∀ s ∈ shapes, s.Worded) : ∀ s ∈ closedShapes shapes, s.Worded := by
    intro s hs
    obtain hs | rfl := mem_closedShapes hs
    · exact worded s hs
    · exact worded_blank
  intro s hs
  simp only [shapes, List.mem_append, List.mem_flatMap, or_assoc] at hs
  obtain hs | hs | ⟨e, he, hs⟩ | ⟨d, hd, hs⟩ | hs := hs
  · refine closed (fun s hs => ?_) s hs
    obtain ⟨i, -, rfl⟩ := List.mem_map.1 hs
    exact worded_directive i
  · refine closed (fun s hs => ?_) s hs
    simp only [List.mem_append, List.mem_map] at hs
    obtain ⟨name, hn | hn, rfl⟩ | ⟨d, hd, rfl⟩ := hs
    · exact worded_forward (ident.incompleteNames hn)
    · exact worded_forward (ident.earlyStructs hn)
    · exact ident.worded_typedef hd
  · exact ident.worded_enumeration he s hs
  · exact ident.worded_struct hd s hs
  · refine closed (fun s hs => ?_) s hs
    obtain ⟨d, hd, rfl⟩ := List.mem_map.1 hs
    exact ident.worded_prototype hd

/-- The type of a forward declaration is none that a header uses. -/
theorem Identified.ne_forward (ident : h.Identified) {d : Typedef} (hd : d ∈ h.typedefs) (name : String) :
    d.type.bare ≠ (forwardSlot name).type := by
  intro same
  have listed : .typedef d ∈ h.items := by simp [items, hd]
  have const := (ident.types d.type (mem_references listed List.mem_cons_self)).2
  cases type : d.type with
  | base b =>
    rw [type] at same const
    have struct : b.qualifiers = ["struct"] := congrArg BaseType.qualifiers (CType.base.inj same)
    have either := const _ List.mem_cons_self
    rw [struct] at either
    simp at either
  | pointer pointee qualifiers =>
    rw [type] at same
    cases same

/-- Nothing has been read. -/
def emptyDraft : Draft := ⟨⟨"", [], [], [], []⟩, [], []⟩

/-- What is read of the lines of a header is its interface. -/
theorem Identified.readShapes_shapes (ident : h.Identified) :
    readShapes h.shapes emptyDraft = ⟨h.interface, [], []⟩ := by
  simp only [shapes, readShapes.append, readShapes.closed, List.append_assoc, readShapes.prototypes, emptyDraft]
  rw [readShapes.structs _ _ rfl, readShapes.enumerations _ _ rfl,
    readShapes.typedefs _ fun t ht => ident.ne_forward ht, readShapes.forwards, readShapes.marks]
  simp [interface]

theorem toList_text (guard : String) (h : Header) :
    (h.text guard).toList = (opening guard).flatMap (fun l => l.toList ++ ['\n'])
      ++ (h.shapes.map Shape.text ++ closing).flatMap fun l => l.toList ++ ['\n'] := by
  rw [text, h.lines_eq, toList_lines (by simp [opening]), List.flatMap_append]

/-- The text of a header under a guard determines its interface. -/
theorem interface_eq_of_text (ident : h.Identified) (ident' : h'.Identified) {guard : String}
    (same : h.text guard = h'.text guard) : h.interface = h'.interface := by
  have lines {h : Header} (ident : h.Identified) : ∀ l ∈ h.shapes.map Shape.text ++ closing, '\n' ∉ l.toList := by
    intro l hl
    obtain hl | hl := List.mem_append.1 hl
    · obtain ⟨s, hs, rfl⟩ := List.mem_map.1 hl
      exact Shape.newline_not_mem (ident.worded_shapes s hs)
    · exact Shape.newline_not_mem (worded_closing hl)
  -- the lines up to the sections depend on the guard alone
  have texts := congrArg String.toList same
  rw [toList_text, toList_text] at texts
  have bodies := List.append_cancel_right (lines_inj (lines ident) (lines ident') (List.append_cancel_left texts))
  have shapes : h.shapes.map Shape.bare = h'.shapes.map Shape.bare :=
    map_eq_of_map_eq (fun s hs s' hs' => Shape.bare_eq_of_text (ident.worded_shapes s hs) (ident'.worded_shapes s' hs'))
      bodies
  have drafts : readShapes h.shapes emptyDraft = readShapes h'.shapes emptyDraft := by
    rw [readShapes, readShapes, shapes]
  rw [ident.readShapes_shapes, ident'.readShapes_shapes] at drafts
  exact congrArg Draft.toHeader drafts

/-- A header that uses one type twice and knows of either use whether the type is incomplete. -/
def ofUses (target : String) (location : Option Source.Location) (first second : Bool) : Header :=
  ⟨target, [⟨"Handle", .pointer (.base ⟨"Engine", [], first⟩) ["const"], location⟩],
    [⟨"Mode", [⟨"Off", some 0⟩, ⟨"On", none⟩], none⟩], [],
    [⟨"start", .ofName "void", [⟨"e", .pointer (.base ⟨"Engine", ["const"], second⟩) []⟩], none⟩]⟩

theorem identified_ofUses (target : String) (location : Option Source.Location) (first second : Bool) :
    (ofUses target location first second).Identified := by
  have names : ∀ name ∈ ["Handle", "Engine", "Mode", "Off", "On", "void", "start", "e"], isIdentifier name = true := by
    decide
  constructor <;> simp_all [ofUses, references, items, Item.references, CType.ofName, CType.baseType,
    CType.qualifierLists]

/-- Two headers with one text differ in their targets, in a location and in the use that is known to be incomplete. -/
theorem interface_ofUses :
    (ofUses "a.h" none true false).text "G" = (ofUses "b.h" (some ⟨"b.txt", 3, none⟩) false true).text "G" ∧
      (ofUses "a.h" none true false).interface = (ofUses "b.h" (some ⟨"b.txt", 3, none⟩) false true).interface := by
  have same : (ofUses "a.h" none true false).text "G" = (ofUses "b.h" (some ⟨"b.txt", 3, none⟩) false true).text "G" :=
    rfl
  exact ⟨same, interface_eq_of_text (identified_ofUses _ _ _ _) (identified_ofUses _ _ _ _) same⟩

end Header

end CInterface
