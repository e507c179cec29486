import ApiDecl.Proofs.Table
import ApiDecl.Schema.OfStruct

/-!
# The inlining graph

The schema of a struct writes out the structs that the types of its visible fields name, unless they
are definitions (`Catalog.Inlines`). Map values are not looked at, and array elements and inline
structs are looked through. A chain of names that comes back to one of its names (`Catalog.IsLasso`)
is what the error for a recursive schema tells.
-/

namespace ApiDecl

open Relation

/-- The name of a field in schemas, if the field is visible and has one. -/
def Field.propertyName? (f : Field) : Option String :=
  if f.exported then f.tag.schemaName? else none

/-- A schema for the type has to have one for the name. -/
inductive FieldType.Mentions : FieldType → TypeName → Prop
  | named (n : TypeName) : Mentions (.named n) n
  | element {t : FieldType} {n : TypeName} (h : t.Mentions n) : Mentions (.array (some t)) n
  | property {s : StructDescriptor} {f : Field} {property : String} {n : TypeName}
      (hf : f ∈ s.fields) (hp : f.propertyName? = some property) (h : f.type.Mentions n) :
      Mentions (.struct s) n

namespace Catalog

/-- A schema for the type writes out the struct of the name. -/
def Unfolds (c : Catalog) (t : FieldType) (target : String) : Prop :=
  ∃ n s, t.Mentions n ∧ n.isDateTime = false ∧ c.get? n = some s ∧ s.isDefinition = false ∧
    s.name = target

/-- A schema for some fields writes out the struct of the name. -/
def UnfoldsAny (c : Catalog) (fields : List Field) (target : String) : Prop :=
  ∃ f ∈ fields, ∃ property, f.propertyName? = some property ∧ c.Unfolds f.type target

/-- A schema for the first struct writes out the second. -/
def Inlines (c : Catalog) (source target : String) : Prop :=
  ∃ s, c.find? source = some s ∧ c.Unfolds (.struct s) target

/-- The name is that of a struct that is no definition. -/
def IsPlain (c : Catalog) (name : String) : Prop :=
  ∃ s, c.find? name = some s ∧ s.isDefinition = false

/-- A cycle of inlining edges is reached from the name. -/
def ReachesCycle (c : Catalog) (name : String) : Prop :=
  ∃ n, ReflTransGen c.Inlines name n ∧ TransGen c.Inlines n n

/-- The chain starts at a name and follows inlining edges; its last name occurs before, and from there
on no struct is a definition. -/
structure IsLasso (c : Catalog) (start : String) (chain : List String) : Prop where
  starts : chain.head? = some start
  edges : chain.IsChain c.Inlines
  returns : ∃ before n cycle, chain = before ++ n :: (cycle ++ [n]) ∧ ∀ m ∈ n :: cycle, c.IsPlain m

section Unfolds

variable {c : Catalog} {target : String}

theorem unfolds_named {n : TypeName} :
    c.Unfolds (.named n) target ↔ n.isDateTime = false ∧
      ∃ s, c.get? n = some s ∧ s.isDefinition = false ∧ s.name = target := by
  constructor
  · rintro ⟨m, s, hm, hd, hs⟩
    cases hm
    exact ⟨hd, s, hs⟩
  · rintro ⟨hd, s, hs⟩
    exact ⟨n, s, .named n, hd, hs⟩

theorem unfolds_array {t : FieldType} :
    c.Unfolds (.array (some t)) target ↔ c.Unfolds t target := by
  constructor
  · rintro ⟨n, s, hn, hs⟩
    cases hn with
    | element h => exact ⟨n, s, h, hs⟩
  · rintro ⟨n, s, hn, hs⟩
    exact ⟨n, s, .element hn, hs⟩

theorem unfolds_struct {s : StructDescriptor} :
    c.Unfolds (.struct s) target ↔ c.UnfoldsAny s.fields target := by
  constructor
  · rintro ⟨n, t, hn, ht⟩
    cases hn with
    | property hf hp h => exact ⟨_, hf, _, hp, n, t, h, ht⟩
  · rintro ⟨f, hf, property, hp, n, t, hn, ht⟩
    exact ⟨n, t, .property hf hp hn, ht⟩

/-- The inlining edges from a struct that is found are those of its fields. -/
theorem inlines_iff {s : StructDescriptor} (hs : c.find? s.name = some s) :
    c.Inlines s.name target ↔ c.Unfolds (.struct s) target := by
  constructor
  · rintro ⟨t, ht, h⟩
    obtain rfl := Option.some.inj (hs.symm.trans ht)
    exact h
  · intro h
    exact ⟨s, hs, h⟩

end Unfolds

/-- A chain that comes back reaches a cycle. -/
theorem IsLasso.reachesCycle {c : Catalog} {start : String} {chain : List String}
    (h : c.IsLasso start chain) : c.ReachesCycle start := by
  obtain ⟨before, n, cycle, rfl, -⟩ := h.returns
  have hcycle : (n :: (cycle ++ [n])).IsChain c.Inlines := h.edges.right_of_append
  refine ⟨n, ?_, transGen_of_isChain hcycle n (by simp)⟩
  cases before with
  | nil =>
    obtain rfl : n = start := by simpa using h.starts
    exact .refl
  | cons a before =>
    obtain rfl : a = start := by simpa using h.starts
    exact (transGen_of_isChain h.edges n (by simp)).to_reflTransGen

end Catalog

end ApiDecl
