import ApiDecl.Proofs.Classifying
import ApiDecl.Route.Signature

/-!
# Proofs: types that name a struct

A path names a struct by its last segment if that has no meaning of its own (`IsStructName`). So does
every type that is looked through to such a path, and a sequence of such types has it as its element
(`TypeExpr.Denotes`). Classifying a type gives what it denotes, and nothing is reported.
-/

namespace ApiDecl

open Syntax

/-- The name is none of a scalar, a wrapper, a container and a point in time. -/
structure IsStructName (name : String) : Prop where
  scalar : Scalar.ofName? name = none
  wrapper : name ∉ wrapperNames
  sequence : name ∉ sequenceNames
  map : name ∉ mapNames
  dateTime : name ∉ TypeName.dateTimeNames

namespace Syntax

/-- The type is a path to a struct, or is looked through to one; or it is a sequence of such types. -/
inductive TypeExpr.Denotes : TypeExpr → FieldType → Prop
  | name {absolute : Bool} {before : List PathSegment} {s : PathSegment} (hs : IsStructName s.name) :
      Denotes (.path absolute (before ++ [s])) (.named ⟨before.map (·.name), s.name⟩)
  | wrapper {absolute : Bool} {before : List PathSegment} {s : PathSegment} {t : TypeExpr}
      {u : FieldType} (hs : s.name ∈ wrapperNames) (ht : s.typeArguments.head? = some t)
      (h : Denotes t u) : Denotes (.path absolute (before ++ [s])) u
  | reference {lifetime : Option String} {mutable : Bool} {t : TypeExpr} {u : FieldType}
      (h : Denotes t u) : Denotes (.reference lifetime mutable t) u
  | pointer {mutable : Bool} {t : TypeExpr} {u : FieldType} (h : Denotes t u) :
      Denotes (.pointer mutable t) u
  | paren {t : TypeExpr} {u : FieldType} (h : Denotes t u) : Denotes (.paren t) u
  | sequence {absolute : Bool} {before : List PathSegment} {s : PathSegment} {t : TypeExpr}
      {u : FieldType} (hs : s.name ∈ sequenceNames) (ht : s.typeArguments.head? = some t)
      (h : Denotes t u) : Denotes (.path absolute (before ++ [s])) (.array (some u))
  | array {t : TypeExpr} {length : List Token} {u : FieldType} (h : Denotes t u) :
      Denotes (.array t length) (.array (some u))
  | slice {t : TypeExpr} {u : FieldType} (h : Denotes t u) : Denotes (.slice t) (.array (some u))

end Syntax

/-! ## Classification -/

theorem elementType_pure (file : String) (u : FieldType) :
    elementType file false (pure u) = pure (some u) := rfl

/-- A type means what it denotes; a shallow classification tells so as well if that is a name. -/
theorem Syntax.TypeExpr.Denotes.classify_eq {t : TypeExpr} {u : FieldType} (h : t.Denotes u)
    (file : String) (shallow : Bool) (hshallow : shallow = false ∨ ∃ n, u = .named n) :
    classify file shallow t = pure u := by
  have hdeep : ∀ v : FieldType, (shallow = false ∨ ∃ n, FieldType.array (some v) = .named n) →
      shallow = false := by
    rintro v (hs | ⟨n, hn⟩)
    · exact hs
    · cases hn
  induction h with
  | name hs =>
    rw [classify_path, classifySegment_other hs.wrapper hs.sequence hs.map, classifyName, hs.scalar]
  | wrapper hs ht _ ih =>
    rw [classify_path, classifySegment_wrapper hs, classifyArgument_head ht]
    exact ih hshallow
  | reference _ ih =>
    rw [classify]
    exact ih hshallow
  | pointer _ ih =>
    rw [classify]
    exact ih hshallow
  | paren _ ih =>
    rw [classify]
    exact ih hshallow
  | sequence hs ht _ ih =>
    obtain rfl := hdeep _ hshallow
    rw [classify_path, classifySegment_sequence hs, classifyElement_head ht, ih (.inl rfl),
      elementType_pure]
    rfl
  | array _ ih =>
    obtain rfl := hdeep _ hshallow
    rw [classify, ih (.inl rfl), elementType_pure]
    rfl
  | slice _ ih =>
    obtain rfl := hdeep _ hshallow
    rw [classify, ih (.inl rfl), elementType_pure]
    rfl

/-! ## Requests and responses -/

namespace Syntax.TypeExpr.Denotes

variable {t : TypeExpr} {n : TypeName}

theorem structName? (h : t.Denotes (.named n)) (file : String) : t.structName? file = some n := by
  rw [TypeExpr.structName?, h.classify_eq file true (.inr ⟨n, rfl⟩)]
  rfl

/-- A type that denotes a name is empty only if that is the name of types without content. -/
theorem not_isEmptyType (h : t.Denotes (.named n)) (hn : n.base ≠ emptyName) :
    t.isEmptyType = false := by
  have hlast : ∀ (absolute : Bool) (before : List PathSegment) (s : PathSegment),
      s.name ≠ emptyName → (TypeExpr.path absolute (before ++ [s])).isEmptyType = false := by
    intro absolute before s hs
    simp [TypeExpr.isEmptyType, TypeExpr.lastName?, TypeExpr.lastSegment?, hs]
  generalize hu : FieldType.named n = u at h
  induction h with
  | name hs =>
    cases hu
    exact hlast _ _ _ hn
  | wrapper hs _ _ _ =>
    have hwrapper : emptyName ∉ wrapperNames := by decide
    exact hlast _ _ _ fun e => hwrapper (e ▸ hs)
  | reference _ _ => rfl
  | pointer _ _ => rfl
  | paren _ ih =>
    rw [TypeExpr.isEmptyType]
    exact ih hu
  | sequence => cases hu
  | array => cases hu
  | slice => cases hu

/-- A reference to a struct is a request of it, unless the struct is written as the empty type. -/
theorem request? (h : t.Denotes (.named n)) (ht : t.isEmptyType = false) (file : String)
    (lifetime : Option String) (mutable : Bool) :
    (TypeExpr.reference lifetime mutable t).request? file = .ok (some n) := by
  have href : (TypeExpr.reference lifetime mutable t).isEmptyType = false := rfl
  simp [TypeExpr.request?, href, ht, h.structName? file]

/-- A struct is a response, unless it has the name of types without content. -/
theorem response? (h : t.Denotes (.named n)) (hn : n.base ≠ emptyName) (file : String) :
    t.response? file = .ok (some n) := by
  simp [TypeExpr.response?, h.not_isEmptyType hn, h.structName? file, hn]

end Syntax.TypeExpr.Denotes

/-! ## Fields -/

section Fields

variable (file owner : String)

/-- An embedded field contributes the struct that its type names. -/
theorem fieldOutcome_embedded {d : FieldDecl} {n : TypeName} (h : d.type.Denotes (.named n))
    (hd : isEmbedded d.attributes = true) : fieldOutcome file owner d = pure (.embed n.base) := by
  obtain ⟨attributes, name, isPublic, type⟩ := d
  rw [fieldOutcome, if_pos hd, h.classify_eq file true (.inr ⟨n, rfl⟩)]
  rfl

/-- A tagged field contributes a field of the type that its type denotes. -/
theorem fieldOutcome_tagged {d : FieldDecl} {u : FieldType} {tag : Tag} (h : d.type.Denotes u)
    (hd : isEmbedded d.attributes = false) (htag : Tag.ofAttributes? d.attributes = .ok (some tag))
    (hempty : tag.isEmpty = false) :
    fieldOutcome file owner d =
      pure (.field ⟨plainName d.name, u, tag, docText (docLines file d.attributes), d.isPublic⟩) := by
  obtain ⟨attributes, name, isPublic, type⟩ := d
  rw [fieldOutcome, if_neg (by simp [hd]), h.classify_eq file false (.inl rfl), taggedOutcome]
  simp only [htag, hempty]
  rfl

end Fields

end ApiDecl
