/-!
# Reasons why XML cannot be read

- `Malformed`: markup that is unknown or not closed.
- `IllFormed`: markup that is closed but breaks a rule of XML documents.
- `Error`: every reason, among them the two that concern the document as a whole.
- `Error.message`: the wording.
-/

namespace DocWeave.Xml

/-- Markup that is unknown, or not closed before the end of the input. -/
inductive Malformed where
  /-- The character after an opening `<!` starts no known markup. -/
  | unknownMarkup
  /-- A processing instruction without its end. -/
  | instruction
  /-- An XML declaration without its end. -/
  | declaration
  /-- A comment without its end. -/
  | comment
  /-- A document type declaration without its end. -/
  | doctype
  /-- A section of character data without its end. -/
  | characterData
  /-- A tag without its end. -/
  | tag
  /-- An attribute value without its closing quote. -/
  | attributeValue (quote : Char)
deriving Repr, DecidableEq

/-- Markup that breaks a rule of XML documents. -/
inductive IllFormed where
  /-- An end tag where no element is open. -/
  | unmatchedEnd (name : String)
  /-- An end tag of another element than the one opened last. -/
  | mismatchedEnd (expected found : String)
  /-- A reference without its semicolon. -/
  | reference
  /-- A document type declaration without a name. -/
  | namelessDoctype
deriving Repr, DecidableEq

/-- Why an input is not an XML document. -/
inductive Error where
  /-- Markup is unknown or not closed. -/
  | malformed (reason : Malformed)
  /-- Markup breaks a rule. -/
  | illFormed (reason : IllFormed)
  /-- The input ended while an element was open. -/
  | unexpectedEnd (element : String)
  /-- The input ended before the first element. -/
  | noRoot
deriving Repr, DecidableEq

/-- The wording for malformed markup. -/
def Malformed.message : Malformed → String
  | .unknownMarkup => "unknown or missed symbol in markup"
  | .instruction => "processing instruction not closed: `?>` not found before end of input"
  | .declaration => "XML declaration not closed: `?>` not found before end of input"
  | .comment => "comment not closed: `-->` not found before end of input"
  | .doctype => "DOCTYPE not closed: `>` not found before end of input"
  | .characterData => "CDATA not closed: `]]>` not found before end of input"
  | .tag => "tag not closed: `>` not found before end of input"
  | .attributeValue quote =>
    "attribute value not closed: `" ++ String.singleton quote ++ "` not found before end of input"

/-- The wording for ill-formed markup. -/
def IllFormed.message : IllFormed → String
  | .unmatchedEnd name => "close tag `</" ++ name ++ ">` does not match any open tag"
  | .mismatchedEnd expected found =>
    "expected `</" ++ expected ++ ">`, but `</" ++ found ++ ">` was found"
  | .reference =>
    "entity or character reference not closed: `;` not found before end of input"
  | .namelessDoctype =>
    "`<!DOCTYPE>` declaration does not contain a name of a document type"

/-- The wording of an error. -/
def Error.message : Error → String
  | .malformed reason => "XML parse error: syntax error: " ++ reason.message
  | .illFormed reason => "XML parse error: ill-formed document: " ++ reason.message
  | .unexpectedEnd element => "unexpected end of XML inside <" ++ element ++ ">"
  | .noRoot => "XML document has no root element"

end DocWeave.Xml
