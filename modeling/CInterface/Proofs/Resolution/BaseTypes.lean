import CInterface.Proofs.Except
import CInterface.Resolution
import Mathlib.Data.List.Forall2

/-!
# What types resolve to

The base of a resolved type is a primitive, an exported name or an incomplete name that is not exported. A
declaration resolves type by type, and a type that mentions an exported name, be it through aliases that are not
exported, keeps that name.
-/

namespace CInterface

open Source

namespace Scope

variable {scope : Scope} {visited : List String} {name : String}

@[simp] theorem resolve_primitive (scope : Scope) (visited : List String) (p : Primitive) :
    scope.resolve visited (.primitive p) = .ok (.ofName p.cName) := by
  rw [resolve]

theorem resolve_pointer (scope : Scope) (visited : List String) (isMutable : Bool) (t : TypeExpr) :
    scope.resolve visited (.pointer isMutable t) =
      (scope.resolve visited t).map fun c => .pointer (if isMutable then c else c.withConst) [] := by
  rw [resolve]

theorem resolve_visited (args : List TypeExpr) (h : name ∈ visited) :
    scope.resolve visited (.named name args) = .error ⟨visited ++ [name]⟩ := by
  rw [resolve, if_pos h]

/-- A name that resolves is not being followed. -/
theorem not_visited {args : List TypeExpr} {c : CType} (h : scope.resolve visited (.named name args) = .ok c) :
    name ∉ visited := by
  intro hv
  rw [resolve_visited args hv] at h
  cases h

theorem resolve_alias {t : TypeExpr} (args : List TypeExpr) (h : name ∉ visited)
    (ht : scope.target? name = some t) :
    scope.resolve visited (.named name args) =
      (scope.resolve (visited ++ [name]) t).map fun c => if name ∈ scope.exported then .ofName name else c := by
  rw [resolve, if_neg h]
  split
  · simp_all
  · simp_all

theorem resolve_other (args : List TypeExpr) (h : name ∉ visited) (ht : scope.target? name = none) :
    scope.resolve visited (.named name args) = .ok (.base ⟨name, [], !scope.exported.contains name⟩) := by
  rw [resolve, if_neg h]
  split
  · simp_all
  · rfl

/-- Where the base of a resolved type can come from. -/
inductive Origin (scope : Scope) (b : BaseType) : Prop
  | primitive (p : Primitive) (hn : b.name = p.cName) (hc : b.isIncomplete = false)
  | exported (hn : b.name ∈ scope.exported) (hc : b.isIncomplete = false)
  | unknown (hn : b.name ∉ scope.exported) (hc : b.isIncomplete = true)

theorem name_pointer (isMutable : Bool) (c : CType) :
    (CType.pointer (if isMutable then c else c.withConst) []).baseType.name = c.baseType.name := by
  cases isMutable with
  | true => rfl
  | false => exact c.name_baseType_withConst

theorem isIncomplete_pointer (isMutable : Bool) (c : CType) :
    (CType.pointer (if isMutable then c else c.withConst) []).baseType.isIncomplete = c.baseType.isIncomplete := by
  cases isMutable with
  | true => rfl
  | false => exact c.isIncomplete_baseType_withConst

theorem Origin.pointer {c : CType} (h : scope.Origin c.baseType) (isMutable : Bool) :
    scope.Origin (CType.pointer (if isMutable then c else c.withConst) []).baseType := by
  have hn := name_pointer isMutable c
  have hc := isIncomplete_pointer isMutable c
  cases h with
  | primitive p h₁ h₂ => exact .primitive p (hn.trans h₁) (hc.trans h₂)
  | exported h₁ h₂ => exact .exported (hn ▸ h₁) (hc.trans h₂)
  | unknown h₁ h₂ => exact .unknown (hn ▸ h₁) (hc.trans h₂)

theorem resolve_origin {t : TypeExpr} {c : CType} (h : scope.resolve visited t = .ok c) :
    scope.Origin c.baseType := by
  induction visited, t using resolve.induct scope generalizing c with
  | case1 visited p =>
    rw [resolve_primitive] at h
    cases h
    exact .primitive p rfl rfl
  | case2 visited isMutable t ih =>
    rw [resolve_pointer, except_map_ok] at h
    obtain ⟨a, ha, rfl⟩ := h
    exact (ih ha).pointer isMutable
  | case3 visited name args hv =>
    rw [resolve_visited args hv] at h
    cases h
  | case4 visited name args hv t ht ih =>
    rw [resolve_alias args hv ht, except_map_ok] at h
    obtain ⟨a, ha, rfl⟩ := h
    split
    · next he => exact .exported he rfl
    · exact ih ha
  | case5 visited name args hv ht =>
    rw [resolve_other args hv ht] at h
    cases h
    by_cases he : name ∈ scope.exported
    · exact .exported he (by simp [CType.baseType, he])
    · exact .unknown he (by simp [CType.baseType, he])

/-- A type mentions a name, under pointers and through aliases that are not exported. -/
inductive Mentions (scope : Scope) : TypeExpr → String → Prop
  | name (name : String) (args : List TypeExpr) : Mentions scope (.named name args) name
  | pointer {t : TypeExpr} {n : String} (isMutable : Bool) (h : Mentions scope t n) :
      Mentions scope (.pointer isMutable t) n
  | inlined {name n : String} {t : TypeExpr} (args : List TypeExpr) (he : name ∉ scope.exported)
      (ht : scope.target? name = some t) (h : Mentions scope t n) : Mentions scope (.named name args) n

/-- An exported name that is mentioned is the base of what the type resolves to. -/
theorem Mentions.baseType_name {t : TypeExpr} {n : String} (m : scope.Mentions t n)
    (he : n ∈ scope.exported) {c : CType} (h : scope.resolve visited t = .ok c) : c.baseType.name = n := by
  induction m generalizing visited c with
  | name name args =>
    have hv := not_visited h
    cases ht : scope.target? name with
    | none =>
      rw [resolve_other args hv ht] at h
      cases h
      rfl
    | some t =>
      rw [resolve_alias args hv ht, except_map_ok] at h
      obtain ⟨a, -, rfl⟩ := h
      simp [he]
  | pointer isMutable _ ih =>
    rw [resolve_pointer, except_map_ok] at h
    obtain ⟨a, ha, rfl⟩ := h
    rw [name_pointer]
    exact ih he ha
  | @inlined name n t args hx ht _ ih =>
    have hv := not_visited h
    rw [resolve_alias args hv ht, except_map_ok] at h
    obtain ⟨a, ha, rfl⟩ := h
    simpa [hx] using ih he ha

end Scope

namespace Source.Declaration

def types : Declaration → List TypeExpr
  | .alias a => [a.target]
  | .enumeration _ => []
  | .struct s => s.fields.map Member.type
  | .function f => f.returnType :: f.parameters.map Member.type

/-- The aliases that are being followed when the types of a declaration are resolved. -/
def entered : Declaration → List String
  | .alias a => [a.name]
  | .enumeration _ => []
  | .struct _ => []
  | .function _ => []

end Source.Declaration

def Item.kind : Item → Kind
  | .typedef _ => .typedef
  | .enumeration _ => .enumeration
  | .struct _ => .struct
  | .prototype _ => .function

namespace Scope

theorem resolveMembers_types {scope : Scope} {ms : List Member} {slots : List Slot}
    (h : scope.resolveMembers ms = .ok slots) :
    List.Forall₂ (fun t c => scope.resolve [] t = .ok c) (ms.map Member.type) (slots.map Slot.type) := by
  induction ms generalizing slots with
  | nil =>
    cases h
    exact .nil
  | cons m ms ih =>
    rw [resolveMembers, except_bind_ok] at h
    obtain ⟨c, hc, h⟩ := h
    rw [except_bind_ok] at h
    obtain ⟨rest, hrest, h⟩ := h
    cases h
    exact .cons hc (ih hrest)

/-- What a declaration resolves to has its kind, takes its name and uses its types, each resolved. -/
theorem resolveDeclaration_ok {scope : Scope} {d : Declaration} {item : Item}
    (h : scope.resolveDeclaration d = .ok item) :
    item.kind = d.kind ∧ item.name = d.headerName ∧
      List.Forall₂ (fun t c => scope.resolve d.entered t = .ok c) d.types item.references := by
  rcases d with a | e | s | f
  · simp only [resolveDeclaration, except_map_ok] at h
    obtain ⟨c, hc, rfl⟩ := h
    exact ⟨rfl, rfl, .cons hc .nil⟩
  · cases h
    exact ⟨rfl, rfl, .nil⟩
  · simp only [resolveDeclaration, except_map_ok] at h
    obtain ⟨slots, hs, rfl⟩ := h
    exact ⟨rfl, rfl, resolveMembers_types hs⟩
  · simp only [resolveDeclaration, except_bind_ok] at h
    obtain ⟨c, hc, slots, hs, h⟩ := h
    cases h
    exact ⟨rfl, rfl, .cons hc (resolveMembers_types hs)⟩

theorem references_origin {scope : Scope} {d : Declaration} {item : Item}
    (h : scope.resolveDeclaration d = .ok item) {c : CType} (hc : c ∈ item.references) :
    scope.Origin c.baseType := by
  obtain ⟨-, -, pairs⟩ := resolveDeclaration_ok h
  obtain ⟨t, -, ht⟩ := forall₂_mem_right pairs hc
  exact resolve_origin ht

end Scope

end CInterface
