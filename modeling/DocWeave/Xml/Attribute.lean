import DocWeave.Xml.Reference
import DocWeave.Xml.Tree

/-!
# Attributes of a tag

The attributes of a tag are read one character at a time from what follows the element name. An
attribute that is malformed, or whose name has been read before, is left out, up to the next white space
at least; the ones after it are kept.

- `AttributeMode`: what the reader is in the middle of.
- `AttributeReader`: the mode, the names seen and the attributes read so far.
- `Attributes.ofTag`: the attributes, without namespace declarations, their values decoded.
-/

namespace DocWeave.Xml

/-- The white space of XML: space, tab and the two line ends. -/
def isSpace (c : Char) : Bool :=
  c = ' ' || c = '\t' || c = '\n' || c = '\r'

/-- What the reader of attributes is in the middle of. Texts are held last character first. -/
inductive AttributeMode where
  /-- Between attributes. -/
  | gap
  /-- Inside a name. -/
  | name (read : List Char)
  /-- In white space after a name, where an equals sign is due. -/
  | equals (read : List Char)
  /-- After the equals sign, where a quote is due. -/
  | value (read : List Char)
  /-- Inside a quoted value. -/
  | quoted (read : List Char) (quote : Char) (value : List Char)
  /-- Inside a value without quotes, or one whose name is not new; it lasts up to the next white
  space. -/
  | bare
deriving Repr

/-- The state of reading attributes. -/
structure AttributeReader where
  /-- What is being read. -/
  mode : AttributeMode := .gap
  /-- Names that were followed by an equals sign. -/
  seen : List (List Char) := []
  /-- Attributes read, last first, with values as written. -/
  read : List (List Char × List Char) := []

/-- An equals sign ends the name, held last character first. -/
def AttributeReader.endName (r : AttributeReader) (read : List Char) : AttributeReader :=
  let name := read.reverse
  if r.seen.contains name then { r with mode := .bare }
  else { r with mode := .value read, seen := name :: r.seen }

/-- Reads one character. -/
def AttributeReader.step (r : AttributeReader) (c : Char) : AttributeReader :=
  match r.mode with
  | .gap => if isSpace c then r else { r with mode := .name [c] }
  | .name read =>
    if c = '=' then r.endName read
    else if isSpace c then { r with mode := .equals read }
    else { r with mode := .name (c :: read) }
  | .equals read =>
    if c = '=' then r.endName read
    else if isSpace c then r
    else { r with mode := .name [c] }
  | .value read =>
    if isSpace c then r
    else if c = '"' || c = '\'' then { r with mode := .quoted read c [] }
    else { r with mode := .bare }
  | .quoted read quote value =>
    if c = quote then { r with mode := .gap, read := (read.reverse, value.reverse) :: r.read }
    else { r with mode := .quoted read quote (c :: value) }
  | .bare => if isSpace c then { r with mode := .gap } else r

/-- Whether an attribute declares a namespace. -/
def isNamespaceName (name : List Char) : Bool :=
  "xmlns".toList.isPrefixOf name

/-- The attributes in what follows the name of a tag. -/
def Attributes.ofTag (content : List Char) : Attributes :=
  let reader := content.foldl AttributeReader.step {}
  (reader.read.reverse.filter fun a => !isNamespaceName a.1).map fun a =>
    (String.ofList a.1, String.ofList (decodeValue a.2))

end DocWeave.Xml
