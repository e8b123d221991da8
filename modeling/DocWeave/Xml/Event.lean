import DocWeave.Xml.Attribute
import DocWeave.Xml.Error

/-!
# Markup events

A document is scanned one character at a time. Each piece of markup or text that a character completes
becomes an event, so what is scanned after a prefix of the input does not depend on the rest.

- `Event`: text, references, character data and tags. Comments, processing instructions and document
  type declarations are scanned but give no event.
- `Mode`: what the scanner is in the middle of.
- `Mode.step`: one character; `Mode.atEnd`: what the end of the input means.
-/

namespace DocWeave.Xml

/-- A piece of a document that matters for its tree. -/
inductive Event where
  /-- Text up to the next markup or reference, never empty. -/
  | text (value : List Char)
  /-- A reference, without the ampersand and the semicolon. -/
  | reference (name : List Char)
  /-- A section of character data. -/
  | characterData (value : List Char)
  /-- A start tag. -/
  | startTag (name : String) (attributes : Attributes)
  /-- An empty tag. -/
  | emptyTag (name : String) (attributes : Attributes)
  /-- An end tag. -/
  | endTag (name : String)
deriving Repr

/-- Where the scanner is in a document type declaration. -/
inductive Doctype where
  /-- Before the internal subset. -/
  | outside
  /-- In a quoted text before the internal subset. -/
  | quoted (quote : Char)
  /-- In the internal subset, between declarations. -/
  | subset
  /-- In the internal subset, after `<` and the start of a keyword. -/
  | keyword (read : List Char)
  /-- In a declaration of the internal subset, perhaps in a quoted text. -/
  | declaration (quote : Option Char)
  /-- In a comment of the internal subset, with the last two characters. -/
  | comment (previous last : Char)
  /-- In a processing instruction of the internal subset, with the last character. -/
  | instruction (last : Char)
  /-- After the internal subset. -/
  | after
deriving Repr

/-- The quote that is open after one more character of markup. -/
def nextQuote (quote : Option Char) (c : Char) : Option Char :=
  match quote with
  | some q => if c = q then none else some q
  | none => if c = '"' || c = '\'' then some c else none

/-- What starts markup of the internal subset after `<`, with the place that it leads to. -/
def subsetKeywords : List (List Char × Doctype) :=
  [("?".toList, .instruction ' '), ("!--".toList, .comment ' ' ' '),
   ("!ELEMENT".toList, .declaration none), ("!ENTITY".toList, .declaration none),
   ("!ATTLIST".toList, .declaration none), ("!NOTATION".toList, .declaration none)]

/-- One character of the internal subset between declarations. -/
def subsetStep (c : Char) : Doctype :=
  if c = ']' then .after else if c = '<' then .keyword [] else .subset

/-- One character of a document type declaration other than the `>` that ends it. A `<` that starts
no known markup means nothing. -/
def Doctype.step : Doctype → Char → Doctype
  | .outside, c =>
    if c = '[' then .subset
    else if c = '"' || c = '\'' then .quoted c
    else .outside
  | .quoted quote, c => if c = quote then .outside else .quoted quote
  | .subset, c => subsetStep c
  | .keyword read, c =>
    let read := read ++ [c]
    match subsetKeywords.lookup read with
    | some place => place
    | none =>
      if subsetKeywords.any fun k => read.isPrefixOf k.1 then .keyword read else subsetStep c
  | .declaration quote, c =>
    if c = '>' && quote.isNone then .subset else .declaration (nextQuote quote c)
  | .comment previous last, c =>
    if c = '>' && last = '-' && previous = '-' then .subset else .comment last c
  | .instruction last, c => if c = '>' && last = '?' then .subset else .instruction c
  | .after, _ => .after

/-- What the scanner is in the middle of. Texts are held last character first. -/
inductive Mode where
  /-- In text. -/
  | text (read : List Char)
  /-- In a reference. -/
  | reference (read : List Char)
  /-- Directly after `<`. -/
  | markup
  /-- In a start tag or an empty tag, perhaps in a quoted value. -/
  | startTag (read : List Char) (quote : Option Char)
  /-- In an end tag, perhaps in a quoted value. -/
  | endTag (read : List Char) (quote : Option Char)
  /-- In a processing instruction or an XML declaration, after `<?`. -/
  | instruction (read : List Char)
  /-- Directly after `<!`. -/
  | declaration
  /-- In a comment, after `<!`. -/
  | comment (read : List Char)
  /-- In a section of character data, after `<!`. -/
  | characterData (read : List Char)
  /-- In a document type declaration, after `<!`. -/
  | doctype (read : List Char) (within : Doctype)
deriving Repr

/-- The event for the content of a start tag or, if it ends in a slash, of an empty tag. The name
lasts up to the first white space. -/
def tagEvent (content : List Char) : Event :=
  let split (text : List Char) : String × Attributes :=
    (String.ofList (text.takeWhile (!isSpace ·)), Attributes.ofTag (text.dropWhile (!isSpace ·)))
  match content.reverse with
  | '/' :: rest => let (name, attributes) := split rest.reverse; .emptyTag name attributes
  | _ => let (name, attributes) := split content; .startTag name attributes

/-- The name of an end tag: its content without white space at the end, unless it is all white
space. -/
def endTagName (content : List Char) : String :=
  let trimmed := (content.reverse.dropWhile isSpace).reverse
  String.ofList (if trimmed.isEmpty then content else trimmed)

/-- Whether a text starts with a word, letters compared in either case. -/
def startsWithWord (word text : List Char) : Bool :=
  word.isPrefixOf ((text.take word.length).map Char.toUpper)

/-- One character of a start tag. -/
def startTagStep (read : List Char) (quote : Option Char) (c : Char) : Mode × Option Event :=
  if c = '>' && quote.isNone then (.text [], some (tagEvent read.reverse))
  else (.startTag (c :: read) (nextQuote quote c), none)

/-- The mode after a comment that `>` may close. It has to start and end with two hyphens of its
own. -/
def commentStep (read : List Char) (c : Char) : Except Error (Mode × Option Event) :=
  match c, read with
  | '>', '-' :: '-' :: _ :: _ :: _ =>
    if "--".toList.isPrefixOf read.reverse then .ok (.text [], none)
    else .error (.malformed .comment)
  | _, _ => .ok (.comment (c :: read), none)

/-- The mode after a section of character data that `>` may close. -/
def characterDataStep (read : List Char) (c : Char) : Except Error (Mode × Option Event) :=
  match c, read with
  | '>', ']' :: ']' :: content =>
    let opening := "[CDATA[".toList
    let text := content.reverse
    if opening.isPrefixOf text then
      .ok (.text [], some (.characterData (text.drop opening.length)))
    else .error (.malformed .characterData)
  | _, _ => .ok (.characterData (c :: read), none)

/-- Ends a document type declaration: it starts with its keyword, and a name follows. -/
def endDoctype (content : List Char) : Except Error (Mode × Option Event) :=
  let keyword := "DOCTYPE".toList
  if startsWithWord keyword content then
    if (content.drop keyword.length).all isSpace then .error (.illFormed .namelessDoctype)
    else .ok (.text [], none)
  else .error (.malformed .doctype)

/-- Scans one character: the next mode and the event that the character completes. -/
def Mode.step (mode : Mode) (c : Char) : Except Error (Mode × Option Event) :=
  match mode with
  | .text read =>
    let event := if read.isEmpty then none else some (.text read.reverse)
    if c = '<' then .ok (.markup, event)
    else if c = '&' then .ok (.reference [], event)
    else .ok (.text (c :: read), none)
  | .reference read =>
    if c = ';' then .ok (.text [], some (.reference read.reverse))
    else if c = '<' || c = '&' then .error (.illFormed .reference)
    else .ok (.reference (c :: read), none)
  | .markup =>
    if c = '!' then .ok (.declaration, none)
    else if c = '?' then .ok (.instruction [], none)
    else if c = '/' then .ok (.endTag [] none, none)
    else .ok (startTagStep [] none c)
  | .startTag read quote => .ok (startTagStep read quote c)
  | .endTag read quote =>
    if c = '>' && quote.isNone then .ok (.text [], some (.endTag (endTagName read.reverse)))
    else .ok (.endTag (c :: read) (nextQuote quote c), none)
  | .instruction read =>
    match c, read with
    | '>', '?' :: _ => .ok (.text [], none)
    | '>', [] => .error (.malformed .instruction)
    | _, _ => .ok (.instruction (c :: read), none)
  | .declaration =>
    if c = '-' then .ok (.comment [c], none)
    else if c = '[' then .ok (.characterData [c], none)
    else if c = 'D' || c = 'd' then .ok (.doctype [c] .outside, none)
    else .error (.malformed .unknownMarkup)
  | .comment read => commentStep read c
  | .characterData read => characterDataStep read c
  | .doctype read within =>
    match c, within with
    | '>', .outside | '>', .after => endDoctype read.reverse
    | _, _ => .ok (.doctype (c :: read) (within.step c), none)

/-- Whether the content of a processing instruction that is not closed belongs to an XML
declaration. -/
def isXmlDeclaration (content : List Char) : Bool :=
  "xml".toList.isPrefixOf content &&
    match content.drop 3 with
    | [] => true
    | c :: _ => c = '?' || isSpace c

/-- The error of an input that ends in a mode, if the end is not between pieces of markup. -/
def Mode.atEnd : Mode → Option Error
  | .text _ => none
  | .reference _ => some (.illFormed .reference)
  | .markup => some (.malformed .tag)
  | .startTag _ quote | .endTag _ quote =>
    match quote with
    | some q => some (.malformed (.attributeValue q))
    | none => some (.malformed .tag)
  | .instruction read =>
    some (.malformed (if isXmlDeclaration read.reverse then .declaration else .instruction))
  | .declaration => some (.malformed .unknownMarkup)
  | .comment _ => some (.malformed .comment)
  | .characterData _ => some (.malformed .characterData)
  | .doctype _ _ => some (.malformed .doctype)

end DocWeave.Xml
