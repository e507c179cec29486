import ApiDecl.Catalog.Basic
import ApiDecl.Doc.Directive
import ApiDecl.Event
import ApiDecl.Tag.Attribute

/-!
# The meaning of type expressions

A type expression is classified by its form. References, pointers, brackets and wrappers such as
`Box` are looked through; sequences and dictionaries keep their element types; every other path is a
scalar or a name; and an inline struct is collected like a declared one. What is left means nothing
in a declaration and is refused with its text.

A shallow classification tells the kind of a type only, without elements, values and fields.
-/

namespace ApiDecl

open Syntax

/-! ## Names with a meaning of their own -/

/-- Wrappers that stand for what they wrap. -/
def wrapperNames : List String := ["Box", "Option", "Rc", "Arc", "Cow"]

/-- Sequences. -/
def sequenceNames : List String :=
  ["Vec", "VecDeque", "LinkedList", "HashSet", "BTreeSet", "IndexSet"]

/-- Dictionaries. -/
def mapNames : List String := ["HashMap", "BTreeMap", "IndexMap"]

/-- The crates below which scalars may be named in full. -/
def standardCrates : List String := ["std", "core", "alloc"]

/-- The modules of those crates that name scalars. -/
def standardModules : List String := ["primitive", "string"]

/-- Whether the segments in front of a name are those of the standard library. -/
def isStandardPrefix : List String → Bool
  | [crate] => standardCrates.contains crate
  | [crate, module] => standardCrates.contains crate && standardModules.contains module
  | _ => false

/-- The meaning of a path that is neither a wrapper nor a container. -/
def classifyName (qualifiers : List String) (name : String) : FieldType :=
  match Scalar.ofName? name with
  | some s =>
    if qualifiers.isEmpty || isStandardPrefix qualifiers then .scalar s
    else .named ⟨qualifiers, name⟩
  | none => .named ⟨qualifiers, name⟩

/-- The name that inline structs have. -/
def inlineStructName : String := "object"

/-! ## Fields -/

/-- What a declared field contributes to its struct. -/
inductive FieldOutcome where
  /-- Nothing. -/
  | skipped
  /-- The fields of another struct. -/
  | embed (target : String)
  /-- A field. -/
  | field (f : Field)

/-- A struct without fields. -/
def StructDescriptor.blank (name : String) : StructDescriptor := ⟨name, [], false, []⟩

/-- Adds what a field contributes; a field takes the place of one with the same name. -/
def StructDescriptor.contribute (s : StructDescriptor) : FieldOutcome → StructDescriptor
  | .skipped => s
  | .embed target => { s with embeds := s.embeds ++ [target] }
  | .field f => { s with fields := putByKey Field.name f s.fields }

/-- The struct that the fields of a body make up. -/
def StructDescriptor.ofOutcomes (name : String) (outcomes : List FieldOutcome) : StructDescriptor :=
  outcomes.foldl .contribute (.blank name)

/-- Turns a failure into nothing, and reports it. -/
def orNote {α : Type} (event : Error → Event) (c : Compile α) : Traced (Option α) := do
  match ← c.run with
  | .ok a => return some a
  | .error e =>
    note (event e)
    return none

/-- The contribution of a field that is embedded in its host, from the shallow meaning of its
type. -/
def embedOutcome (file owner field : String) (type : Compile FieldType) : Traced FieldOutcome := do
  match ← orNote (Event.embedSkipped file owner field) type with
  | some (.named name) => return .embed name.base
  | some other =>
    note (.embedNotStruct file owner field other.typeName)
    return .skipped
  | none => return .skipped

/-- The contribution of a field that is not embedded, from the meaning of its type. -/
def taggedOutcome (file owner field : String) (d : FieldDecl) (type : Compile FieldType) :
    Traced FieldOutcome := do
  match Tag.ofAttributes? d.attributes with
  | .error e =>
    note (.tagMalformed file owner field e.message)
    return .skipped
  | .ok none => return .skipped
  | .ok (some tag) =>
    if tag.isEmpty then return .skipped
    match ← orNote (Event.fieldSkipped file owner field) type with
    | none => return .skipped
    | some t =>
      return .field ⟨field, t, tag, docText (docLines file d.attributes), d.isPublic⟩

/-! ## Classification -/

/-- The element or value type of a container; one that means nothing is left open, and a shallow
classification does not look at it. -/
def elementType (file : String) (shallow : Bool) (type : Compile FieldType) :
    Compile (Option FieldType) :=
  if shallow then return none else orNote (Event.elementDropped file) type

mutual

/-- The meaning of a type expression in a file. -/
def classify (file : String) (shallow : Bool) : TypeExpr → Compile FieldType
  | .path absolute segments =>
    classifyPath file shallow (TypeExpr.path absolute segments).text [] segments
  | .reference _ _ target => classify file shallow target
  | .pointer _ target => classify file shallow target
  | .paren inner => classify file shallow inner
  | .array element _ => return .array (← elementType file shallow (classify file false element))
  | .slice element => return .array (← elementType file shallow (classify file false element))
  | .inlineStruct _ _ fields =>
    if shallow then return .struct (.blank "")
    else
      return .struct (.ofOutcomes inlineStructName (← fieldOutcomes file inlineStructName fields))
  | .brokenInlineStruct _ _ reason =>
    if shallow then return .struct (.blank "") else throw (.brokenInlineStruct reason)
  | .projection base traitPath members =>
    throw (.unsupportedType (TypeExpr.projection base traitPath members).text)
  | .tuple elements trailingComma =>
    throw (.unsupportedType (TypeExpr.tuple elements trailingComma).text)
  | .bareBound enclosed bound =>
    throw (.unsupportedType (TypeExpr.bareBound enclosed bound).text)
  | .other tokens => throw (.unsupportedType (TypeExpr.other tokens).text)

/-- The meaning of a path with a given text, from its segments after some names. -/
def classifyPath (file : String) (shallow : Bool) (text : String) (before : List String) :
    List PathSegment → Compile FieldType
  | [] => throw (.unsupportedType text)
  | [s] => classifySegment file shallow text before s
  | s :: t :: rest => classifyPath file shallow text (before ++ [s.name]) (t :: rest)

/-- The meaning of a path from its last segment. -/
def classifySegment (file : String) (shallow : Bool) (text : String) (before : List String) :
    PathSegment → Compile FieldType
  | .plain name =>
    if wrapperNames.contains name then throw (.unsupportedType text)
    else if sequenceNames.contains name then return .array none
    else if mapNames.contains name then return .map none
    else return classifyName before name
  | .generic name _ arguments _ =>
    if wrapperNames.contains name then
      classifyArgument file shallow 0 (throw (.unsupportedType text)) arguments
    else if sequenceNames.contains name then do
      return .array (← classifyElement file shallow 0 arguments)
    else if mapNames.contains name then do
      return .map (← classifyElement file shallow 1 arguments)
    else return classifyName before name

/-- The meaning of the type argument at an index, or a default if there are not that many. -/
def classifyArgument (file : String) (shallow : Bool) (index : Nat) (default : Compile FieldType) :
    List GenericArgument → Compile FieldType
  | [] => default
  | .type t :: rest =>
    match index with
    | 0 => classify file shallow t
    | n + 1 => classifyArgument file shallow n default rest
  | .lifetime _ :: rest => classifyArgument file shallow index default rest
  | .other _ :: rest => classifyArgument file shallow index default rest

/-- The meaning of the type argument of a container at an index. -/
def classifyElement (file : String) (shallow : Bool) (index : Nat) :
    List GenericArgument → Compile (Option FieldType)
  | [] => return none
  | .type t :: rest =>
    match index with
    | 0 => elementType file shallow (classify file false t)
    | n + 1 => classifyElement file shallow n rest
  | .lifetime _ :: rest => classifyElement file shallow index rest
  | .other _ :: rest => classifyElement file shallow index rest

/-- What each field of a body contributes. -/
def fieldOutcomes (file owner : String) : List FieldDecl → Traced (List FieldOutcome)
  | [] => return []
  | d :: rest => do
    let first ← fieldOutcome file owner d
    return first :: (← fieldOutcomes file owner rest)

/-- What one field of a body contributes. -/
def fieldOutcome (file owner : String) : FieldDecl → Traced FieldOutcome
  | ⟨attributes, name, isPublic, type⟩ =>
    if isEmbedded attributes then
      embedOutcome file owner (plainName name) (classify file true type)
    else
      taggedOutcome file owner (plainName name) ⟨attributes, name, isPublic, type⟩
        (classify file false type)

end

/-- The struct with a given name and the fields of a body: those with a tag that mean something, and
the structs to embed. -/
def collectFields (file owner : String) (fields : List FieldDecl) : Traced StructDescriptor := do
  return .ofOutcomes owner (← fieldOutcomes file owner fields)

end ApiDecl
