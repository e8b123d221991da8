import DocWeave.Json
import DocWeave.Page.Document

/-!
# Documents as JSON

Every value is an object whose first field tells its type. Anchors and options that are absent have no
field; line numbers are not written.

- `Node.toJson`, `Page.Block.toJson`, `Page.Document.toJson`.
- `Page.Document.jsonText`: the text of a document.
-/

namespace DocWeave

/-- The type of a node of some kind. -/
def Kind.jsonName : Kind → String
  | .block => "block"
  | .paragraph => "paragraph"
  | .span => "span"
  | .strong => "strong"
  | .emphasis => "emphasis"
  | .inlineCode => "inlineCode"
  | .code => "code"
  | .list => "list"
  | .listItem => "listItem"

/-- The fields of a label: the type, and what else the label holds. -/
def Label.jsonFields : Label → List (String × JsonValue)
  | .plain kind => [("type", .string kind.jsonName)]
  | .heading depth => [("type", .string "heading"), ("depth", .number depth.toNat)]
  | .admonition kind => [("type", .string "admonition"), ("kind", .string kind.name)]
  | .link url => [("type", .string "link"), ("url", .string url)]

/-- A field for a text that may be absent. -/
def optionalField (name : String) (value : Option String) : List (String × JsonValue) :=
  value.toList.map fun text => (name, .string text)

namespace Node

mutual

/-- A node as JSON. -/
def toJson : Node → JsonValue
  | .text value => .object [("type", .string "text"), ("value", .string value)]
  | .branch label id children =>
    .object (label.jsonFields ++ optionalField "id" id ++ [("children", .array (listToJson children))])

/-- The nodes of a list as JSON. -/
def listToJson : List Node → List JsonValue
  | [] => []
  | n :: ns => n.toJson :: listToJson ns

end

end Node

/-- The fields of a request. -/
def Request.jsonFields (r : Request) : List (String × JsonValue) :=
  ("module", .string r.moduleName) :: optionalField "members" r.members ++
    optionalField "undocMembers" r.undocMembers ++
    optionalField "privateMembers" r.privateMembers ++
    optionalField "specialMembers" r.specialMembers

namespace Page

/-- The fields of a place for documentation: those of its request, and its nodes. -/
def Pending.jsonFields (place : Pending) : List (String × JsonValue) :=
  place.request.jsonFields ++ [("children", .array (Node.listToJson place.children))]

/-- A block as JSON. -/
def Block.toJson : Block → JsonValue
  | .markdown value => .object [("type", .string "markdown"), ("value", .string value)]
  | .autodoc place => .object (("type", .string "autodoc") :: place.jsonFields)

/-- A document as JSON. -/
def Document.toJson (d : Document) : JsonValue :=
  .object [("type", .string "root"), ("children", .array (d.blocks.map Block.toJson))]

/-- The JSON text of a document. -/
def Document.jsonText (d : Document) : String :=
  d.toJson.pretty

end Page

end DocWeave
