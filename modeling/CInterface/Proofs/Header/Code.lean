import CInterface.Header.Text

/-!
# The lines of a header as code

Behind each line of a header stands what it says: the names it introduces and the types it uses. Properties of a line
that depend on the lines before it are followed section by section.
-/

namespace CInterface

/-- A line of a header. Blocks of enumerations and structs introduce their name where they close. -/
inductive Line where
  | plain (text : String)
  | support (i : Include)
  | forward (name : String)
  | typedef (d : Typedef)
  | enumClosing (d : EnumDefinition)
  | field (owner : StructDefinition) (f : Slot)
  | structClosing (d : StructDefinition)
  | prototype (d : Prototype)
  deriving DecidableEq, Repr

namespace Line

def text : Line → String
  | .plain s => s
  | .support i => i.directive
  | .forward name => forwardLine name
  | .typedef d => d.line
  | .enumClosing d => "\x7d " ++ d.name ++ ";"
  | .field _ f => indent ++ f.text ++ ";"
  | .structClosing d => "\x7d " ++ d.name ++ ";"
  | .prototype d => d.line

def types : Line → List CType
  | .typedef d => [d.type]
  | .field _ f => [f.type]
  | .prototype d => d.returnType :: d.parameters.map Slot.type
  | _ => []

def introduces : Line → List String
  | .support i => i.names
  | .forward name => [name]
  | .typedef d => [d.name]
  | .enumClosing d => [d.name]
  | .structClosing d => [d.name]
  | _ => []

end Line

def EnumDefinition.code (d : EnumDefinition) : List Line :=
  [Line.plain ("typedef enum " ++ d.name ++ " \x7b")] ++ d.values.map (fun v => Line.plain v.line)
    ++ [Line.enumClosing d]

def StructDefinition.code (d : StructDefinition) : List Line :=
  [Line.plain ("typedef struct " ++ d.name ++ " \x7b")] ++ d.fields.map (Line.field d) ++ [Line.structClosing d]

/-- Lines with an empty line behind them, if there are any. -/
def closedCode (lines : List Line) : List Line := if lines.isEmpty then [] else lines ++ [.plain ""]

namespace Header

def typedefCode (h : Header) : List Line :=
  h.incompleteNames.map Line.forward ++ h.earlyStructs.map Line.forward ++ h.typedefs.map (fun d => .typedef d)

def code (guard : String) (h : Header) : List Line :=
  (opening guard).map .plain
    ++ closedCode (h.includes.map .support)
    ++ closedCode h.typedefCode
    ++ h.enumerations.flatMap (closedCode ·.code)
    ++ h.structs.flatMap (closedCode ·.code)
    ++ closedCode (h.prototypes.map .prototype)
    ++ closing.map .plain

end Header

theorem closedCode_text (lines : List Line) :
    (closedCode lines).map Line.text = Header.closed (lines.map Line.text) := by
  cases lines with
  | nil => rfl
  | cons l ls => simp [closedCode, Header.closed, Line.text]

theorem EnumDefinition.code_text (d : EnumDefinition) : d.code.map Line.text = d.lines := by
  simp [code, lines, Line.text, Function.comp_def]

theorem StructDefinition.code_text (d : StructDefinition) : d.code.map Line.text = d.lines := by
  simp [code, lines, Line.text, Function.comp_def]

theorem Header.typedefCode_text (h : Header) : h.typedefCode.map Line.text = h.typedefSection := by
  simp [typedefCode, typedefSection, Line.text, Function.comp_def]

theorem Header.code_text (guard : String) (h : Header) : (h.code guard).map Line.text = h.lines guard := by
  simp only [code, lines, List.map_append, List.map_flatMap, List.map_map, closedCode_text, typedefCode_text,
    EnumDefinition.code_text, StructDefinition.code_text]
  simp [Function.comp_def, Line.text]

def introduced (lines : List Line) : List String := lines.flatMap Line.introduces

@[simp] theorem introduced_append (xs ys : List Line) : introduced (xs ++ ys) = introduced xs ++ introduced ys :=
  List.flatMap_append

@[simp] theorem introduced_cons (l : Line) (ls : List Line) : introduced (l :: ls) = l.introduces ++ introduced ls :=
  List.flatMap_cons

theorem introduced_map {α : Type} (f : α → Line) (xs : List α) :
    introduced (xs.map f) = xs.flatMap fun x => (f x).introduces := by
  rw [introduced, List.flatMap_map]

theorem introduced_flatMap {α : Type} (f : α → List Line) (xs : List α) :
    introduced (xs.flatMap f) = xs.flatMap fun x => introduced (f x) := by
  rw [introduced, List.flatMap_assoc]
  rfl

@[simp] theorem introduced_plain (texts : List String) : introduced (texts.map .plain) = [] := by
  simp [introduced_map, Line.introduces]

@[simp] theorem introduced_support (is : List Include) : introduced (is.map .support) = is.flatMap Include.names :=
  introduced_map _ is

@[simp] theorem introduced_forward (names : List String) : introduced (names.map .forward) = names := by
  simp [introduced_map, Line.introduces]

@[simp] theorem introduced_typedef (ds : List Typedef) :
    introduced (ds.map fun d => .typedef d) = ds.map (·.name) := by
  rw [introduced_map, List.map_eq_flatMap]
  rfl

@[simp] theorem introduced_prototype (ds : List Prototype) : introduced (ds.map .prototype) = [] := by
  simp [introduced_map, Line.introduces]

@[simp] theorem introduced_field (s : StructDefinition) (fields : List Slot) :
    introduced (fields.map (.field s)) = [] := by
  simp [introduced_map, Line.introduces]

@[simp] theorem introduced_closedCode (lines : List Line) : introduced (closedCode lines) = introduced lines := by
  cases lines with
  | nil => rfl
  | cons l ls => simp [closedCode, introduced, Line.introduces]

theorem EnumDefinition.introduced_code (d : EnumDefinition) : introduced d.code = [d.name] := by
  simp [code, introduced, Line.introduces, List.flatMap_map]

theorem StructDefinition.introduced_code (d : StructDefinition) : introduced d.code = [d.name] := by
  simp [code, introduced, Line.introduces, List.flatMap_map]

@[simp] theorem introduced_enumerations (ds : List EnumDefinition) :
    introduced (ds.flatMap (closedCode ·.code)) = ds.map (·.name) := by
  rw [introduced_flatMap, List.map_eq_flatMap]
  exact congrArg ds.flatMap (funext fun d => (introduced_closedCode _).trans d.introduced_code)

@[simp] theorem introduced_structs (ds : List StructDefinition) :
    introduced (ds.flatMap (closedCode ·.code)) = ds.map (·.name) := by
  rw [introduced_flatMap, List.map_eq_flatMap]
  exact congrArg ds.flatMap (funext fun d => (introduced_closedCode _).trans d.introduced_code)

@[simp] theorem mem_closedCode {l : Line} {lines : List Line} :
    l ∈ closedCode lines ↔ l ∈ lines ∨ (lines ≠ [] ∧ l = .plain "") := by
  cases lines with
  | nil => simp [closedCode]
  | cons x xs => simp [closedCode, or_assoc]

@[simp] theorem EnumDefinition.structClosing_not_mem_code {s : StructDefinition} {d : EnumDefinition} :
    .structClosing s ∉ d.code := by
  simp [code]

@[simp] theorem EnumDefinition.forward_not_mem_code {name : String} {d : EnumDefinition} :
    .forward name ∉ d.code := by
  simp [code]

@[simp] theorem StructDefinition.forward_not_mem_code {name : String} {d : StructDefinition} :
    .forward name ∉ d.code := by
  simp [code]

@[simp] theorem StructDefinition.structClosing_mem_code {s d : StructDefinition} :
    .structClosing s ∈ d.code ↔ s = d := by
  simp [code]

theorem Header.typedef_mem_code {guard : String} {h : Header} {d : Typedef} :
    .typedef d ∈ h.code guard ↔ d ∈ h.typedefs := by
  simp [code, typedefCode, EnumDefinition.code, StructDefinition.code]

theorem Header.field_mem_code {guard : String} {h : Header} {s : StructDefinition} {f : Slot} :
    .field s f ∈ h.code guard ↔ s ∈ h.structs ∧ f ∈ s.fields := by
  simp [code, typedefCode, EnumDefinition.code, StructDefinition.code]

theorem Header.forward_mem_code {guard : String} {h : Header} {name : String} :
    .forward name ∈ h.code guard ↔ name ∈ h.incompleteNames ∨ name ∈ h.earlyStructs := by
  simp [code, typedefCode]

theorem Header.prototype_mem_code {guard : String} {h : Header} {d : Prototype} :
    .prototype d ∈ h.code guard ↔ d ∈ h.prototypes := by
  simp [code, typedefCode, EnumDefinition.code, StructDefinition.code]

/-- Every line has a property that may depend on the lines before it, those in `seen` included. -/
def Holds (P : List Line → Line → Prop) (seen : List Line) : List Line → Prop
  | [] => True
  | l :: ls => P seen l ∧ Holds P (seen ++ [l]) ls

section Holds

variable {P : List Line → Line → Prop} {seen : List Line}

theorem holds_append {xs ys : List Line} : Holds P seen (xs ++ ys) ↔ Holds P seen xs ∧ Holds P (seen ++ xs) ys := by
  induction xs generalizing seen with
  | nil => simp [Holds]
  | cons x xs ih => simp [Holds, ih, and_assoc]

theorem holds_of_forall {lines : List Line} (h : ∀ l ∈ lines, ∀ seen, P seen l) : Holds P seen lines := by
  induction lines generalizing seen with
  | nil => trivial
  | cons l ls ih => exact ⟨h l List.mem_cons_self seen, ih fun x hx => h x (List.mem_cons_of_mem _ hx)⟩

theorem Holds.of_split {lines before after : List Line} {l : Line} (h : Holds P seen lines)
    (split : lines = before ++ l :: after) : P (seen ++ before) l := by
  rw [split, holds_append] at h
  exact h.2.1

theorem holds_flatMap {α : Type} {f : α → List Line} {xs : List α}
    (h : ∀ (first rest : List α) (x : α), xs = first ++ x :: rest → Holds P (seen ++ first.flatMap f) (f x)) :
    Holds P seen (xs.flatMap f) := by
  induction xs generalizing seen with
  | nil => trivial
  | cons x xs ih =>
    rw [List.flatMap_cons, holds_append]
    have head := h [] xs x rfl
    refine ⟨by simpa using head, ih fun first rest y split => ?_⟩
    have tail := h (x :: first) rest y (by rw [split, List.cons_append])
    rwa [List.flatMap_cons, ← List.append_assoc] at tail

theorem holds_map {α : Type} {f : α → Line} {xs : List α}
    (h : ∀ (first rest : List α) (x : α), xs = first ++ x :: rest → P (seen ++ first.map f) (f x)) :
    Holds P seen (xs.map f) := by
  rw [List.map_eq_flatMap]
  refine holds_flatMap fun first rest x split => ⟨?_, trivial⟩
  rw [← List.map_eq_flatMap]
  exact h first rest x split

theorem holds_closedCode (plain : ∀ seen, P seen (.plain "")) {lines : List Line} (h : Holds P seen lines) :
    Holds P seen (closedCode lines) := by
  rw [closedCode]
  split
  · trivial
  · exact holds_append.2 ⟨h, plain _, trivial⟩

/-- In the block of a struct only the fields are of interest. -/
theorem StructDefinition.holds_code {s : StructDefinition} (plain : ∀ seen text, P seen (.plain text))
    (closing : ∀ seen, P seen (.structClosing s))
    (h : ∀ (first rest : List Slot) (f : Slot), s.fields = first ++ f :: rest →
      P (seen ++ [Line.plain ("typedef struct " ++ s.name ++ " \x7b")] ++ first.map (.field s)) (.field s f)) :
    Holds P seen s.code :=
  holds_append.2 ⟨holds_append.2 ⟨⟨plain _ _, trivial⟩, holds_map h⟩, closing _, trivial⟩

end Holds

end CInterface
