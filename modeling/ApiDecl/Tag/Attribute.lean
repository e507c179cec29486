import ApiDecl.Syntax.Parser.Complete
import ApiDecl.Tag.Basic

/-!
# Tags in attributes

A tag is written in `#[api(...)]` attributes as `key = "value"` entries and bare keys, between
commas. Several attributes make one tag, in order. The bare key `flatten`, in an `api` or a `serde`
attribute, marks a field whose struct is embedded in its host.
-/

namespace ApiDecl

open Syntax ApiDecl.Syntax.Parser

/-- The name of the attribute that holds tags. -/
def tagAttribute : String := "api"

/-- The key that marks an embedded struct. -/
def flattenKey : String := "flatten"

/-- The attributes in which a field can be marked as embedded. -/
def embeddingAttributes : List String := ["serde", tagAttribute]

/-! ## Entries -/

/-- The key of an entry: any word. A path is refused, but only after it is read. -/
def tagKey : Parser String := do
  let absolute ← optionalSymbol "::"
  let isLiteral ← peek Peek.literal
  let first ← if ← peek Peek.anyWord then anyWord
    else if ← atEnd then fail "expected nested attribute"
    else if isLiteral then fail "unexpected literal in nested attribute, expected ident"
    else fail "unexpected token in nested attribute, expected ident"
  let others ← manyWhile (Peek.symbol "::") do
    symbol "::"
    anyWord
  if absolute || !others.isEmpty then failHere "tag keys must be plain identifiers"
  return first

/-- An entry: a key, with a string after an equals sign or alone. -/
def tagEntry : Parser (String × String) := do
  let key ← tagKey
  if ← optionalSymbol "=" then return (key, ← stringLiteral) else return (key, "")

/-- The entries of one attribute. -/
def Syntax.Attribute.tagEntries (a : Attribute) : Except SyntaxError (List (String × String)) :=
  match a.content with
  | .flag =>
    .error ⟨a.position,
      s!"expected attribute arguments in parentheses: #[{tagAttribute}(...)]"⟩
  | .value _ => .error ⟨a.position, s!"expected parentheses: #[{tagAttribute}(...)]"⟩
  | .list tokens => do return (← runAll (commaSeparated tagEntry) tokens).1.1

/-- The tag of a field with these attributes, `none` if no attribute is a tag. -/
def Tag.ofAttributes? (attributes : List Attribute) : Except SyntaxError (Option Tag) := do
  let tagged := attributes.filter (·.path.isName tagAttribute)
  let entries ← tagged.mapM (·.tagEntries)
  return if tagged.isEmpty then none else some ⟨entries.flatten⟩

/-! ## Embedding -/

/-- Whether an attribute lists the bare key `flatten`. A list that does not parse does not. -/
def Syntax.Attribute.listsFlatten (a : Attribute) : Bool :=
  match a.content with
  | .list tokens =>
    match metaItems tokens with
    | .ok items => items.any fun
      | (path, .flag) => path.isName flattenKey
      | _ => false
    | .error _ => false
  | _ => false

/-- Whether a field with these attributes is embedded in its host. -/
def isEmbedded (attributes : List Attribute) : Bool :=
  attributes.any fun a => embeddingAttributes.any a.path.isName && a.listsFlatten

end ApiDecl
