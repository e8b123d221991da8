import DocWeave.Node.Basic

/-!
# Nodes as HTML

- `escape`: text in which no character can be taken for markup.
- `Label.tag`, `Label.htmlAttributes`: the HTML element of a label.
- `Node.write`: a node as HTML, with its anchor id as the first attribute.
- `htmlOf`: a list of nodes as HTML.
-/

namespace DocWeave

namespace Html

/-- A character as it stands in text and in quoted attribute values. -/
def escapeChar : Char → List Char
  | '&' => "&amp;".toList
  | '<' => "&lt;".toList
  | '>' => "&gt;".toList
  | '"' => "&quot;".toList
  | '\'' => "&#x27;".toList
  | c => [c]

/-- A text as it stands in text and in quoted attribute values. -/
def escape (text : List Char) : List Char :=
  text.flatMap escapeChar

/-- An attribute with its value escaped. -/
def writeAttribute (name value : String) : List Char :=
  ' ' :: name.toList ++ '=' :: '"' :: escape value.toList ++ ['"']

/-- A text as HTML. -/
def escapeText (text : String) : String :=
  String.ofList (escape text.toList)

end Html

/-- The HTML element of a kind. -/
def Kind.tag : Kind → String
  | .block => "div"
  | .paragraph => "p"
  | .span => "span"
  | .strong => "strong"
  | .emphasis => "em"
  | .inlineCode => "code"
  | .code => "pre"
  | .list => "ul"
  | .listItem => "li"

/-- The HTML element of a label. -/
def Label.tag : Label → String
  | .plain kind => kind.tag
  | .heading depth => "h" ++ Nat.repr depth.toNat
  | .admonition _ => "aside"
  | .link _ => "a"

/-- The HTML attributes that a label adds after the id. -/
def Label.htmlAttributes : Label → List (String × String)
  | .plain _ | .heading _ => []
  | .admonition kind => [("class", "admonition " ++ kind.name)]
  | .link url => [("href", url)]

/-- The HTML attributes of a node with a label and an id. -/
def Label.allAttributes (label : Label) (id : Option String) : List (String × String) :=
  id.toList.map (fun value => ("id", value)) ++ label.htmlAttributes

namespace Node

/-- The start tag of a node. -/
def writeStart (label : Label) (id : Option String) : List Char :=
  '<' :: label.tag.toList ++
    (label.allAttributes id).flatMap (fun a => Html.writeAttribute a.1 a.2) ++ ['>']

/-- The end tag of a node. -/
def writeEnd (label : Label) : List Char :=
  '<' :: '/' :: label.tag.toList ++ ['>']

mutual

/-- A node as HTML. -/
def write : Node → List Char
  | .text value => Html.escape value.toList
  | .branch label id children => writeStart label id ++ writeList children ++ writeEnd label

/-- A list of nodes as HTML. -/
def writeList : List Node → List Char
  | [] => []
  | n :: ns => n.write ++ writeList ns

end

end Node

/-- A list of nodes as HTML. -/
def htmlOf (nodes : List Node) : String :=
  String.ofList (Node.writeList nodes)

end DocWeave
