import CInterface.Proofs.Assembly.Closure
import CInterface.Proofs.Header.ForwardDeclarations
import CInterface.Text.Identifier

/-!
# Names are declared before they are used

The sections of a header stand in a fixed order, and each keeps the order of the source. Support headers and forward
declarations come first, so that every type a line uses has been introduced above it. There are two exceptions, both
for want of a forward declaration in C: typedefs may name enumerations, all of which come later, or typedefs further
down. A struct that is a field by value is complete exactly if it stands before the struct of the field.
-/

namespace CInterface

open Source

/-- A name is declared after some lines if it is built in or one of them introduces it. -/
def Declared (seen : List Line) (name : String) : Prop :=
  name ∈ ["void", "float", "double"] ∨ name ∈ introduced seen

namespace Header

/-- What a typedef uses comes later: all enumerations do, and the typedefs that do not stand before it. -/
def Postpones (h : Header) : Line → String → Prop
  | .typedef d, name => name ∈ h.enumerations.map (·.name) ∨
      (name ∈ h.typedefs.map (·.name) ∧ ¬ [name, d.name].Sublist (h.typedefs.map (·.name)))
  | _, _ => False

/-- A line uses what is declared, unless that is postponed, and its field by value is complete if its struct stands
before the struct of the field. -/
def Orders (h : Header) (seen : List Line) (line : Line) : Prop :=
  (∀ t ∈ line.types, Declared seen t.baseType.name ↔ ¬ h.Postpones line t.baseType.name) ∧
    ∀ s f, line = .field s f → f.type.depth = 0 → ∀ r ∈ h.structs, r.name = f.type.baseType.name →
      (.structClosing r ∈ seen ↔ [r.name, s.name].Sublist (h.structs.map (·.name)))

/-- Every line uses only what is declared above it, and fields by value only structs that are complete. -/
def DeclaresBeforeUse (h : Header) (guard : String) : Prop :=
  ∀ (before after : List Line) (line : Line), h.code guard = before ++ line :: after →
    (∀ t ∈ line.types, Declared before t.baseType.name) ∧
      ∀ s f, line = .field s f → f.type.depth = 0 → ∀ r ∈ h.structs, r.name = f.type.baseType.name →
        .structClosing r ∈ before

/-- Every type of a header is known, and the types that it defines are distinct from each other, from primitives and
from incomplete types. -/
structure Coherent (h : Header) : Prop where
  known : ∀ t ∈ h.references, Assembly.Known h t.baseType
  nodup : h.typeNames.Nodup
  primitive : ∀ p : Primitive, p.cName ∉ h.typeNames
  incomplete : ∀ name ∈ h.incompleteNames, name ∉ h.typeNames

end Header

theorem Include.mem_names {i : Include} {name : String} (h : name ∈ i.names) : ∃ p : Primitive, p.cName = name := by
  have all : ∀ n ∈ i.names, ∃ p ∈ Primitive.all, p.cName = n := by cases i <;> decide
  obtain ⟨p, -, hp⟩ := all name h
  exact ⟨p, hp⟩

theorem mem_builtin {name : String} (h : name ∈ ["void", "float", "double"]) : ∃ p : Primitive, p.cName = name := by
  have all : ∀ n ∈ ["void", "float", "double"], ∃ p ∈ Primitive.all, p.cName = n := by decide
  obtain ⟨p, -, hp⟩ := all name h
  exact ⟨p, hp⟩

/-- In a list without repetitions a member stands before another one exactly if it belongs to what precedes it. -/
theorem mem_iff_sublist {α : Type} {first rest : List α} {a b : α} (nodup : (first ++ b :: rest).Nodup) :
    a ∈ first ↔ [a, b].Sublist (first ++ b :: rest) := by
  constructor
  · intro ha
    exact (List.singleton_sublist.2 ha).append (List.singleton_sublist.2 List.mem_cons_self)
  · intro h
    obtain ⟨left, right, hab, hl, hr⟩ := List.sublist_append_iff.1 h
    rcases List.cons_eq_append_iff.1 hab with ⟨rfl, rfl⟩ | ⟨l, rfl, -⟩
    · -- both would stand behind, and the second one twice
      have hb : b ∈ rest := by
        cases hr with
        | cons _ hr => exact hr.subset (by simp)
        | cons_cons _ hr => exact hr.subset (by simp)
      have tail := (List.nodup_append'.1 nodup).2.1
      exact absurd hb (List.nodup_cons.1 tail).1
    · exact hl.subset List.mem_cons_self

namespace Header

variable {h : Header} {seen : List Line} {later : List String}

/-- Where support headers and forward declarations have been passed, a type of the header is declared if it is built
in, incomplete or introduced after those. -/
theorem Coherent.declared_iff (c : h.Coherent) {t : CType} (ht : t ∈ h.references)
    (hs : introduced seen = h.includes.flatMap Include.names ++ h.incompleteNames ++ later) :
    Declared seen t.baseType.name ↔ (t.baseType.name ∈ h.typeNames → t.baseType.name ∈ later) := by
  rw [Declared, hs, List.mem_append, List.mem_append, List.mem_flatMap]
  cases c.known t ht with
  | primitive p hn hc =>
    have free : t.baseType.name ∉ h.typeNames := hn ▸ c.primitive p
    refine iff_of_true ?_ fun hd => absurd hd free
    exact (Assembly.primitive_supported ht hn).imp_right fun supported => .inl (.inl supported)
  | incomplete hn hc => exact iff_of_true (.inr (.inl (.inr hn))) fun hd => absurd hd (c.incomplete _ hn)
  | defined hn hc =>
    constructor
    · rintro (hb | (⟨i, hi, hb⟩ | hb) | hb) _
      · obtain ⟨p, hp⟩ := mem_builtin hb
        exact absurd (hp ▸ hn) (c.primitive p)
      · obtain ⟨p, hp⟩ := Include.mem_names hb
        exact absurd (hp ▸ hn) (c.primitive p)
      · exact absurd hn (c.incomplete _ hb)
      · exact hb
    · intro hl
      exact .inr (.inr (hl hn))

theorem mem_typeNames {name : String} :
    name ∈ h.typeNames ↔
      name ∈ h.typedefs.map (·.name) ∨ name ∈ h.enumerations.map (·.name) ∨ name ∈ h.structs.map (·.name) := by
  rw [typeNames, List.mem_append, List.mem_append, or_assoc]

theorem Coherent.sections (c : h.Coherent) :
    (h.typedefs.map (·.name)).Nodup ∧ (h.structs.map (·.name)).Nodup ∧
      (∀ name ∈ h.enumerations.map (·.name), name ∉ h.typedefs.map (·.name)) ∧
      ∀ name ∈ h.structs.map (·.name), name ∉ h.typedefs.map (·.name) ∧ name ∉ h.enumerations.map (·.name) := by
  obtain ⟨front, structs, apart⟩ := List.nodup_append'.1 c.nodup
  obtain ⟨typedefs, -, disjoint⟩ := List.nodup_append'.1 front
  refine ⟨typedefs, structs, fun name hn ht => disjoint ht hn, fun name hn => ?_⟩
  have out : name ∉ h.typedefs.map (·.name) ++ h.enumerations.map (·.name) := fun hf => apart hf hn
  rw [List.mem_append, not_or] at out
  exact out

theorem orders_of_no_field {line : Line} (no : ∀ s f, line ≠ .field s f)
    (use : ∀ t ∈ line.types, Declared seen t.baseType.name ↔ ¬ h.Postpones line t.baseType.name) :
    h.Orders seen line :=
  ⟨use, fun s f same => absurd same (no s f)⟩

theorem orders_of_no_types {line : Line} (no : line.types = []) : h.Orders seen line := by
  refine orders_of_no_field ?_ (by simp [no])
  rintro s f rfl
  cases no

theorem Coherent.orders_typedef (c : h.Coherent) {first rest : List Typedef} {d : Typedef}
    (split : h.typedefs = first ++ d :: rest)
    (hs : introduced seen = h.includes.flatMap Include.names ++ h.incompleteNames
      ++ (h.earlyStructs ++ first.map (·.name))) : h.Orders seen (.typedef d) := by
  obtain ⟨distinct, -, enums, structs⟩ := c.sections
  have mem : d ∈ h.typedefs := by simp [split]
  have order : d.type.baseType.name ∈ first.map (·.name) ↔
      [d.type.baseType.name, d.name].Sublist (h.typedefs.map (·.name)) := by
    rw [split, List.map_append, List.map_cons] at distinct ⊢
    exact mem_iff_sublist distinct
  have earlier : [d.type.baseType.name, d.name].Sublist (h.typedefs.map (·.name)) →
      d.type.baseType.name ∈ h.typedefs.map (·.name) := fun hl => hl.subset List.mem_cons_self
  have early : d.type.baseType.name ∈ h.earlyStructs ↔ d.type.baseType.name ∈ h.structs.map (·.name) :=
    ⟨fun he => earlyStructs_subset he, early_of_typedef mem⟩
  refine orders_of_no_field (by simp) fun t ht => ?_
  rw [List.mem_singleton.1 ht, c.declared_iff (typedef_mem_references mem) hs, mem_typeNames, List.mem_append,
    Postpones, order, early]
  constructor
  · rintro declared (he | ⟨ht, out⟩)
    · rcases declared (.inr (.inl he)) with hn | hl
      · exact (structs _ hn).2 he
      · exact enums _ he (earlier hl)
    · rcases declared (.inl ht) with hn | hl
      · exact (structs _ hn).1 ht
      · exact out hl
  · rintro free (ht | he | hn)
    · by_contra out
      exact free (.inr ⟨ht, fun hl => out (.inr hl)⟩)
    · exact absurd (.inl he) free
    · exact .inl hn

theorem Coherent.orders_field (c : h.Coherent) {first rest : List StructDefinition} {s : StructDefinition} {f : Slot}
    (split : h.structs = first ++ s :: rest) (hf : f ∈ s.fields)
    (hs : introduced seen = h.includes.flatMap Include.names ++ h.incompleteNames
      ++ (h.earlyStructs ++ h.typedefs.map (·.name) ++ h.enumerations.map (·.name) ++ first.map (·.name)))
    (complete : ∀ r, .structClosing r ∈ seen ↔ r ∈ first) : h.Orders seen (.field s f) := by
  obtain ⟨-, distinct, -, -⟩ := c.sections
  have mem : s ∈ h.structs := by simp [split]
  constructor
  · intro t ht
    rw [List.mem_singleton.1 ht, c.declared_iff (field_mem_references mem hf) hs, mem_typeNames]
    refine iff_of_true ?_ not_false
    have early := earlier_or_early_of_field split hf
    simp only [List.mem_append]
    tauto
  · intro s' f' same _ r hr _
    cases same
    rw [split, List.map_append, List.map_cons] at distinct ⊢
    rw [complete, ← mem_iff_sublist distinct, List.mem_map]
    constructor
    · intro hr
      exact ⟨r, hr, rfl⟩
    · rintro ⟨r', hr', same⟩
      have unique := List.inj_on_of_nodup_map c.sections.2.1
      rwa [← unique (split ▸ List.mem_append_left _ hr') hr same]

theorem Coherent.orders_prototype (c : h.Coherent) {d : Prototype} (hd : d ∈ h.prototypes)
    (hs : introduced seen = h.includes.flatMap Include.names ++ h.incompleteNames
      ++ (h.earlyStructs ++ h.typedefs.map (·.name) ++ h.enumerations.map (·.name) ++ h.structs.map (·.name))) :
    h.Orders seen (.prototype d) := by
  refine orders_of_no_field (by simp) fun t ht => ?_
  rw [c.declared_iff (prototype_mem_references hd ht) hs, mem_typeNames]
  refine iff_of_true ?_ not_false
  simp only [List.mem_append]
  tauto

theorem holds_orders_of_no_types {lines : List Line} (no : ∀ l ∈ lines, l.types = []) :
    Holds h.Orders seen lines :=
  holds_of_forall fun l hl _ => orders_of_no_types (no l hl)

/-- Section by section, every line of a coherent header is in order. -/
theorem Coherent.holds_code (c : h.Coherent) (guard : String) : Holds h.Orders [] (h.code guard) := by
  have plain : ∀ seen text, h.Orders seen (.plain text) := fun _ _ => orders_of_no_types rfl
  simp only [code, typedefCode, holds_append, List.nil_append]
  refine ⟨⟨⟨⟨⟨⟨?_, ?_⟩, ?_⟩, ?_⟩, ?_⟩, ?_⟩, ?_⟩
  · exact holds_orders_of_no_types (by simp [Line.types])
  · exact holds_closedCode (plain · "") (holds_orders_of_no_types (by simp [Line.types]))
  · refine holds_closedCode (plain · "") (holds_append.2 ⟨?_, holds_map fun first rest d split => ?_⟩)
    · exact holds_orders_of_no_types (by simp [Line.types, or_imp, forall_and])
    · exact c.orders_typedef split (by simp)
  · refine holds_flatMap fun first rest d _ => holds_closedCode (plain · "") (holds_orders_of_no_types ?_)
    simp [EnumDefinition.code, Line.types, or_imp, forall_and]
  · refine holds_flatMap fun first rest s split => holds_closedCode (plain · "") ?_
    refine s.holds_code plain (fun _ => orders_of_no_types rfl) fun before after f fields => ?_
    refine c.orders_field split (by simp [fields]) ?_ fun r => ?_
    · simp [Line.introduces]
    · simp
  · refine holds_closedCode (plain · "") (holds_map fun first rest d split => ?_)
    exact c.orders_prototype (by simp [split]) (by simp)
  · exact holds_orders_of_no_types (by simp [Line.types])

theorem Coherent.orders (c : h.Coherent) {guard : String} {before after : List Line} {line : Line}
    (split : h.code guard = before ++ line :: after) : h.Orders before line := by
  have ordered := (c.holds_code guard).of_split split
  rwa [List.nil_append] at ordered

/-- A coherent header declares before use if no typedef uses what comes later, and no struct holds itself or a later
one by value. -/
theorem Coherent.declaresBeforeUse_iff (c : h.Coherent) (guard : String) :
    h.DeclaresBeforeUse guard ↔
      (∀ d ∈ h.typedefs, ¬ h.Postpones (.typedef d) d.type.baseType.name) ∧
        ∀ s ∈ h.structs, ∀ f ∈ s.fields, f.type.depth = 0 → ∀ r ∈ h.structs, r.name = f.type.baseType.name →
          [r.name, s.name].Sublist (h.structs.map (·.name)) := by
  constructor
  · intro use
    constructor
    · intro d hd
      obtain ⟨before, after, split⟩ := List.append_of_mem (typedef_mem_code.2 hd)
      have declared := (use before after _ split).1 d.type (List.mem_singleton.2 rfl)
      exact ((c.orders split).1 d.type (List.mem_singleton.2 rfl)).1 declared
    · intro s hs f hf flat r hr same
      obtain ⟨before, after, split⟩ := List.append_of_mem (field_mem_code.2 ⟨hs, hf⟩)
      have complete := (use before after _ split).2 s f rfl flat r hr same
      exact ((c.orders split).2 s f rfl flat r hr same).1 complete
  · rintro ⟨typedefs, structs⟩ before after line split
    have mem : line ∈ h.code guard := by simp [split]
    refine ⟨fun t ht => ((c.orders split).1 t ht).2 ?_, ?_⟩
    · cases line with
      | typedef d => exact List.mem_singleton.1 ht ▸ typedefs d (typedef_mem_code.1 mem)
      | _ => exact not_false
    · rintro s f rfl flat r hr same
      obtain ⟨hs, hf⟩ := field_mem_code.1 mem
      exact ((c.orders split).2 s f rfl flat r hr same).2 (structs s hs f hf flat r hr same)

end Header

namespace Assembly

variable {ds : List Declaration}

/-- Assembled headers are coherent as long as nothing is named like a primitive. -/
theorem coherent (distinct : ∀ d ∈ ds, ∀ p : Primitive, d.name ≠ p.cName) (target : String) :
    (of ds target).header.Coherent := by
  refine ⟨fun t ht => reference_known ht, header_typeNames_nodup ds target, ?_, ?_⟩
  · intro p hp
    obtain ⟨r, hr, -, same⟩ := mem_header_typeNames.1 hp
    exact distinct _ ((Selection.accepted_sublist ds).subset (emitted_resolves hr).1) p same
  · intro name hn hd
    obtain ⟨t, href, incomplete, rfl⟩ := Header.mem_incompleteNames.1 hn
    obtain ⟨r, hr, ht⟩ := mem_references.1 href
    -- what is incomplete is not exported
    cases Scope.references_origin (emitted_resolves hr).2 ht with
    | primitive p _ hc => simp [hc] at incomplete
    | exported _ hc => simp [hc] at incomplete
    | unknown free _ => exact free (exported_of_typeNames hd)

/-- In the text of an assembled header every line uses only what is declared above it, but for typedefs of an
enumeration or of a typedef that does not stand before them. A struct that is a field by value is complete exactly if
it stands before the struct of the field. -/
theorem declared_before_use (ds : List Declaration) (distinct : ∀ d ∈ ds, ∀ p : Primitive, d.name ≠ p.cName)
    (target guard : String) :
    let h := (of ds target).header
    h.text guard = "\n".intercalate ((h.code guard).map Line.text) ++ "\n" ∧
      (∀ (before after : List Line) (line : Line), h.code guard = before ++ line :: after → h.Orders before line) ∧
      (h.DeclaresBeforeUse guard ↔
        (∀ d ∈ h.typedefs, ¬ h.Postpones (.typedef d) d.type.baseType.name) ∧
          ∀ s ∈ h.structs, ∀ f ∈ s.fields, f.type.depth = 0 → ∀ r ∈ h.structs, r.name = f.type.baseType.name →
            [r.name, s.name].Sublist (h.structs.map (·.name))) := by
  intro h
  have c : h.Coherent := coherent distinct target
  refine ⟨by rw [Header.text, Header.code_text], ?_, c.declaresBeforeUse_iff guard⟩
  intro before after line split
  exact c.orders split

def engineDefinition : StructDefinition := ⟨"Engine", [⟨"pump", .ofName "Pump"⟩], none⟩

def pumpDefinition : StructDefinition := ⟨"Pump", [⟨"rate", .ofName "int32_t"⟩], none⟩

/-- A struct with a field by value whose own struct comes later. -/
def pumpLast : List Declaration :=
  [.struct ⟨"Engine", [⟨"pump", .named "Pump" []⟩], true, true, none⟩,
    .struct ⟨"Pump", [⟨"rate", .primitive .i32⟩], true, true, none⟩]

theorem declared_incomplete_pumpLast :
    (∀ d ∈ pumpLast, ∀ p : Primitive, d.name ≠ p.cName) ∧
      ∃ before after : List Line, (of pumpLast "lib.h").header.code "LIB_H" =
          before ++ .field engineDefinition ⟨"pump", .ofName "Pump"⟩ :: after ∧
        Declared before "Pump" ∧ .structClosing pumpDefinition ∉ before := by
  have listed : ∀ d ∈ pumpLast, ∀ p ∈ Primitive.all, d.name ≠ p.cName := by decide +kernel
  have distinct : ∀ d ∈ pumpLast, ∀ p : Primitive, d.name ≠ p.cName := fun d hd p => listed d hd p p.mem_all
  have header : (of pumpLast "lib.h").header = ⟨"lib.h", [], [], [engineDefinition, pumpDefinition], []⟩ := by
    decide +kernel
  obtain ⟨-, orders, -⟩ := declared_before_use pumpLast distinct "lib.h" "LIB_H"
  rw [header] at orders ⊢
  have mem : Line.field engineDefinition ⟨"pump", .ofName "Pump"⟩ ∈
      Header.code "LIB_H" ⟨"lib.h", [], [], [engineDefinition, pumpDefinition], []⟩ :=
    Header.field_mem_code.2 (by decide)
  obtain ⟨before, after, split⟩ := List.append_of_mem mem
  refine ⟨distinct, before, after, split, ?_, ?_⟩
  · exact ((orders before after _ split).1 (.ofName "Pump") (by decide)).2 not_false
  · rw [(orders before after _ split).2 _ _ rfl rfl _ (by decide) rfl]
    decide

def hueDefinition : Typedef := ⟨"Hue", .ofName "Color", none⟩

def hueFirst : List Declaration :=
  [.alias ⟨"Hue", .named "Color" [], [], true, none⟩, .enumeration ⟨"Color", [⟨"Red", none⟩], true, true, none, none⟩]

theorem not_declaresBeforeUse_hueFirst :
    (∀ d ∈ hueFirst, Text.isIdentifier d.name = true ∧ ∀ p : Primitive, d.name ≠ p.cName) ∧
      ¬ (of hueFirst "lib.h").header.DeclaresBeforeUse "LIB_H" := by
  have listed : ∀ d ∈ hueFirst, Text.isIdentifier d.name = true ∧ ∀ p ∈ Primitive.all, d.name ≠ p.cName := by
    decide +kernel
  constructor
  · intro d hd
    exact ⟨(listed d hd).1, fun p => (listed d hd).2 p p.mem_all⟩
  · have header : (of hueFirst "lib.h").header =
        ⟨"lib.h", [hueDefinition], [⟨"Color", [⟨"Red", none⟩], none⟩], [], []⟩ := by decide +kernel
    rw [header]
    intro use
    have declared := (use ((Header.opening "LIB_H").map .plain) _ (.typedef hueDefinition) rfl).1 hueDefinition.type
      (List.mem_singleton.2 rfl)
    rcases declared with builtin | earlier
    · exact absurd builtin (by decide)
    · exact absurd earlier (by decide)

end Assembly

end CInterface
