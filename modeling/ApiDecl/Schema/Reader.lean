import ApiDecl.Json.Record
import ApiDecl.Schema.Basic

/-!
# Reading schemas

A schema is read back from the JSON object that it is written as. Parts that are not there are not
set.
-/

namespace ApiDecl.Schema

open Json

/-- A list of texts. -/
def textList? : NodeReader (List String) := Node.list? fun _ node => node.text?

/-- The schema that a node holds. -/
def ofNode? : NodeReader Schema
  | 0, _ => none
  | inner + 1, node => do
    let r ← node.record? partNames true
    return {
      type := ← r.optional? "type" Node.text?
      format := ← r.optional? "format" Node.text?
      order := ← r.withDefault? "x-apicat-order" [] (textList? inner)
      items := ← r.optional? "items" (ofNode? inner)
      properties := ← r.withDefault? "properties" [] fun node =>
        match inner with
        | 0 => none
        | deeper + 1 => node.table? (fun _ => ofNode? deeper) (deeper + 1)
      additionalProperties := ← r.optional? "additionalProperties" (ofNode? inner)
      required := ← r.withDefault? "required" [] (textList? inner)
      description := ← r.withDefault? "description" "" Node.text?
      reference := ← r.optional? "$ref" Node.text?
    }

/-- The schema that a text holds. -/
def read? (text : String) : Option Schema := do ofNode? maxLevels (← Node.read? text)

end ApiDecl.Schema
