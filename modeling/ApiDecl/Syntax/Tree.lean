import ApiDecl.Syntax.Token

/-!
# Syntax trees

The parts of a parsed file that declarations are read from: type expressions, attributes, struct
fields, structs, traits and the items that contain them. What no declaration depends on, such as a
function pointer type or the length of an array, is kept as tokens.

`SourceFile.structs` and `SourceFile.traits` list the visible declarations of a file. Items inside
modules and inside the expressions of other items are visible, those inside functions and
implementations are not.
-/

namespace ApiDecl.Syntax

/-- A path without arguments, such as `std::vec`. -/
structure ModulePath where
  /-- Whether the path starts with `::`. -/
  absolute : Bool
  /-- The names between the `::`. -/
  segments : List String
  deriving Repr, DecidableEq, Inhabited

/-- Whether a path is a single given name. -/
def ModulePath.isName (p : ModulePath) (name : String) : Bool :=
  !p.absolute && p.segments == [name]

/-- What follows the path of an attribute. -/
inductive AttributeContent where
  /-- Nothing. -/
  | flag
  /-- A delimited list of tokens. -/
  | list (tokens : List Token)
  /-- An equals sign and an expression; `text` is its value if that is a string literal. -/
  | value (text : Option String)
  deriving Inhabited

/-- An attribute, written before what it applies to or, as an inner one, inside it. -/
structure Attribute where
  /-- The name of the attribute. -/
  path : ModulePath
  /-- What follows the name. -/
  content : AttributeContent
  /-- Where the attribute starts. -/
  position : Position
  deriving Inhabited

mutual

/-- A type expression. -/
inductive TypeExpr where
  /-- A path such as `std::vec::Vec<T>`. -/
  | path (absolute : Bool) (segments : List PathSegment)
  /-- A path below another type, such as `<T as Iterator>::Item`; `traitPath` is the trait. -/
  | projection (base : TypeExpr) (traitPath : List Token) (members : List PathSegment)
  /-- A reference. -/
  | reference (lifetime : Option String) (mutable : Bool) (target : TypeExpr)
  /-- A raw pointer. -/
  | pointer (mutable : Bool) (target : TypeExpr)
  /-- A type in round brackets. -/
  | paren (inner : TypeExpr)
  /-- A tuple. -/
  | tuple (elements : List TypeExpr) (trailingComma : Bool)
  /-- An array and its length. -/
  | array (element : TypeExpr) (length : List Token)
  /-- A slice. -/
  | slice (element : TypeExpr)
  /-- An inline struct `object! { … }`, with its fields. -/
  | inlineStruct (delimiter : Delimiter) (body : List Token) (fields : List FieldDecl)
  /-- An inline struct whose body does not parse as fields, with the reason. -/
  | brokenInlineStruct (delimiter : Delimiter) (body : List Token) (reason : String)
  /-- A single bound that stands as a type without `dyn`, such as `for<'a> Handler<'a>`; the bound
  is in round brackets if it is `enclosed`. -/
  | bareBound (enclosed : Bool) (bound : List Token)
  /-- Any other type. -/
  | other (tokens : List Token)

/-- One name of a path, with its arguments. -/
inductive PathSegment where
  /-- A name alone. -/
  | plain (name : String)
  /-- A name with arguments in angle brackets, with or without `::` in front of them. -/
  | generic (name : String) (turbofish : Bool) (arguments : List GenericArgument)
      (trailingComma : Bool)

/-- An argument in angle brackets. -/
inductive GenericArgument where
  /-- A lifetime, without its apostrophe. -/
  | lifetime (name : String)
  /-- A type. -/
  | type (type : TypeExpr)
  /-- A constant, a binding or a constraint. -/
  | other (tokens : List Token)

/-- A field of a struct body. -/
structure FieldDecl where
  /-- The attributes of the field. -/
  attributes : List Attribute
  /-- The name, with its raw marker. -/
  name : String
  /-- Whether the field is declared `pub` without a restriction. -/
  isPublic : Bool
  /-- The type of the field. -/
  type : TypeExpr

end

instance : Inhabited TypeExpr := ⟨.other []⟩
instance : Inhabited PathSegment := ⟨.plain ""⟩
instance : Inhabited GenericArgument := ⟨.other []⟩
instance : Inhabited FieldDecl := ⟨⟨[], "", false, default⟩⟩

namespace PathSegment

/-- The name of a segment. -/
def name : PathSegment → String
  | plain name | generic name .. => name

/-- The arguments of a segment. -/
def arguments : PathSegment → List GenericArgument
  | plain _ => []
  | generic _ _ arguments _ => arguments

/-- The types among the arguments of a segment, in order. -/
def typeArguments (s : PathSegment) : List TypeExpr :=
  s.arguments.filterMap fun
    | .type t => some t
    | _ => none

end PathSegment

/-- Whether an argument is a lifetime. -/
def GenericArgument.isLifetime : GenericArgument → Bool
  | lifetime _ => true
  | type _ | other _ => false

/-! ## Tokens of a type -/

namespace TypeExpr

/-- A word that stands for itself. -/
def wordToken (s : String) : Token := .word s default

/-- A mark by itself, not glued to what follows. -/
def markToken (c : Char) : Token := .mark c false default

/-- Two marks that are one symbol. -/
def symbolTokens (a b : Char) : List Token := [.mark a true default, .mark b false default]

/-- A lifetime. -/
def lifetimeTokens (name : String) : List Token :=
  [.mark (Char.ofNat 0x27) true default, wordToken name]

/-- A group around some tokens. -/
def groupToken (d : Delimiter) (content : List Token) : Token := .group d content default default

/-- A generic argument about to be printed. -/
structure PrintedArgument where
  /-- Whether it is a lifetime. -/
  isLifetime : Bool
  /-- Its tokens. -/
  tokens : List Token
  /-- Whether a comma follows it in the source. -/
  comma : Bool

/-- Arguments with commas between them, and after the last one if the source has one there. -/
def joinArguments : List PrintedArgument → List Token
  | [] => []
  | [a] => a.tokens ++ (if a.comma then [markToken ','] else [])
  | a :: b :: rest => a.tokens ++ markToken ',' :: joinArguments (b :: rest)

/-- Arguments with the lifetimes first, joined by commas. -/
def orderedArguments (arguments : List PrintedArgument) : List Token :=
  joinArguments (arguments.filter (·.isLifetime) ++ arguments.filter (!·.isLifetime))

mutual

/-- The tokens of a type, in canonical spacing. -/
def tokens : TypeExpr → List Token
  | path absolute segments =>
    (if absolute then symbolTokens ':' ':' else []) ++ segmentTokens segments
  | projection base traitPath members =>
    markToken '<' :: base.tokens ++ traitPath ++ markToken '>' :: symbolTokens ':' ':' ++
      segmentTokens members
  | reference lifetime mutable target =>
    markToken '&' :: (match lifetime with | some l => lifetimeTokens l | none => []) ++
      (if mutable then [wordToken "mut"] else []) ++ target.tokens
  | pointer mutable target =>
    markToken '*' :: wordToken (if mutable then "mut" else "const") :: target.tokens
  | paren inner => [groupToken .paren inner.tokens]
  | tuple elements trailingComma => [groupToken .paren (elementTokens elements trailingComma)]
  | array element length => [groupToken .bracket (element.tokens ++ markToken ';' :: length)]
  | slice element => [groupToken .bracket element.tokens]
  | inlineStruct d body _ | brokenInlineStruct d body _ =>
    [wordToken "object", markToken '!', groupToken d body]
  | bareBound enclosed bound => if enclosed then [groupToken .paren bound] else bound
  | other tokens => tokens

/-- The tokens of path segments, with `::` between them. -/
def segmentTokens : List PathSegment → List Token
  | [] => []
  | [s] => segmentToken s
  | s :: t :: rest => segmentToken s ++ symbolTokens ':' ':' ++ segmentTokens (t :: rest)

/-- The tokens of one path segment. Lifetime arguments come before all others. -/
def segmentToken : PathSegment → List Token
  | .plain name => [wordToken name]
  | .generic name turbofish arguments trailingComma =>
    wordToken name :: (if turbofish then symbolTokens ':' ':' else []) ++
      markToken '<' :: orderedArguments (argumentTokens arguments trailingComma) ++ [markToken '>']

/-- The arguments in angle brackets as they are printed: each has a comma after it, the last one of
the source only if it is written there. -/
def argumentTokens : List GenericArgument → Bool → List PrintedArgument
  | [], _ => []
  | [a], trailingComma => [⟨a.isLifetime, argumentToken a, trailingComma⟩]
  | a :: b :: rest, trailingComma =>
    ⟨a.isLifetime, argumentToken a, true⟩ :: argumentTokens (b :: rest) trailingComma

/-- The tokens of one argument. -/
def argumentToken : GenericArgument → List Token
  | .lifetime name => lifetimeTokens name
  | .type t => t.tokens
  | .other tokens => tokens

/-- The tokens of tuple elements, with commas between them; a single element always has one. -/
def elementTokens : List TypeExpr → Bool → List Token
  | [], _ => []
  | [t], trailingComma => t.tokens ++ (if trailingComma then [markToken ','] else [])
  | t :: u :: rest, trailingComma =>
    t.tokens ++ markToken ',' :: elementTokens (u :: rest) trailingComma

end

/-- The tokens of arguments in angle brackets. -/
def angleTokens (arguments : List GenericArgument) (trailingComma : Bool) : List Token :=
  markToken '<' :: orderedArguments (argumentTokens arguments trailingComma) ++ [markToken '>']

/-- A type on one line. -/
def text (t : TypeExpr) : String := Token.render t.tokens

end TypeExpr

/-! ## Items -/

/-- A struct declaration. -/
structure StructDecl where
  /-- The attributes before the struct. -/
  attributes : List Attribute
  /-- The name, with its raw marker. -/
  name : String
  /-- The fields, if they are named. -/
  fields : Option (List FieldDecl)
  deriving Inhabited

/-- A method declared in a trait. -/
structure MethodDecl where
  /-- The attributes before the method and inside its body. -/
  attributes : List Attribute
  /-- The name, with its raw marker. -/
  name : String
  /-- The types of the parameters, the receiver apart. -/
  parameters : List TypeExpr
  /-- The declared result type. -/
  result : Option TypeExpr
  deriving Inhabited

/-- A trait declaration. -/
structure TraitDecl where
  /-- The attributes before the trait and inside its body. -/
  attributes : List Attribute
  /-- The name, with its raw marker. -/
  name : String
  /-- The methods, in order. -/
  methods : List MethodDecl
  deriving Inhabited

/-- An item of a file, with the items nested in it. -/
inductive Item where
  /-- A struct. -/
  | struct (decl : StructDecl)
  /-- A trait. -/
  | trait (decl : TraitDecl)
  /-- A module with a body. -/
  | module (items : List Item)
  /-- A function and the items declared in it. -/
  | function (items : List Item)
  /-- An implementation and the items declared in its methods and constants. -/
  | implementation (items : List Item)
  /-- Any other item, with the items declared in its expressions. -/
  | other (items : List Item)
  deriving Inhabited

namespace Item

mutual

/-- The visible structs of an item, in order. -/
def structs : Item → List StructDecl
  | struct decl => [decl]
  | module items | other items => structsOf items
  | trait _ | function _ | implementation _ => []

/-- The visible structs of some items, in order. -/
def structsOf : List Item → List StructDecl
  | [] => []
  | i :: rest => i.structs ++ structsOf rest

end

mutual

/-- The visible traits of an item, in order. -/
def traits : Item → List TraitDecl
  | trait decl => [decl]
  | module items | other items => traitsOf items
  | struct _ | function _ | implementation _ => []

/-- The visible traits of some items, in order. -/
def traitsOf : List Item → List TraitDecl
  | [] => []
  | i :: rest => i.traits ++ traitsOf rest

end

end Item

/-- A parsed declaration file. -/
structure SourceFile where
  /-- The path of the file, as it was given. -/
  path : String
  /-- The items of the file, those of expressions included. -/
  items : List Item
  deriving Inhabited

/-- The visible structs of a file, in order. -/
def SourceFile.structs (f : SourceFile) : List StructDecl := Item.structsOf f.items

/-- The visible traits of a file, in order. -/
def SourceFile.traits (f : SourceFile) : List TraitDecl := Item.traitsOf f.items

/-- A name without its raw marker. -/
def plainName (name : String) : String :=
  match name.toList with
  | 'r' :: '#' :: rest => String.ofList rest
  | _ => name

end ApiDecl.Syntax
