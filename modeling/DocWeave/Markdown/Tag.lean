import DocWeave.Markdown.Source

/-!
# Tags and addresses between angle brackets

- `TagState`: a scanner for one start tag or end tag, one character at a time.
- `tagSize`: the length of a tag in running text; `isTagLine`: a line that holds a tag and nothing
  else.
- `declarationSize`: the length of a comment, a declaration or the like in running text.
- `readAddress`: an address or a mail address between angle brackets.
-/

namespace DocWeave.Markdown

/-- Where the scanner of a tag is. -/
inductive TagState where
  /-- After the opening bracket. -/
  | start
  /-- After the slash of an end tag. -/
  | endStart
  /-- In the name of an end tag. -/
  | endName
  /-- In white space after the name of an end tag. -/
  | endGap
  /-- In the name of a start tag. -/
  | name
  /-- In white space before an attribute. -/
  | gap
  /-- In the name of an attribute. -/
  | attributeName
  /-- In white space after the name of an attribute. -/
  | afterAttribute
  /-- After an equals sign. -/
  | beforeValue
  /-- In a value without quotes. -/
  | bare
  /-- In a value with quotes. -/
  | quoted (quote : Char)
  /-- After the closing quote. -/
  | afterValue
  /-- After the slash of an empty tag. -/
  | slash
  /-- After the closing bracket. -/
  | done
deriving Repr, DecidableEq

/-- White space and line ends. -/
def isTagSpace (c : Char) : Bool :=
  isSpaceChar c || c = '\n' || c = '\r'

/-- Whether a character may stand in the name of a tag. -/
def isTagNameChar (c : Char) : Bool :=
  c.isAlphanum || c = '-'

/-- Whether a character may start the name of an attribute. -/
def isAttributeStart (c : Char) : Bool :=
  c.isAlpha || c = '_' || c = ':'

/-- Whether a character may stand in the name of an attribute. -/
def isAttributeChar (c : Char) : Bool :=
  c.isAlphanum || c = '_' || c = ':' || c = '.' || c = '-'

/-- Whether a character ends a value without quotes. -/
def endsBareValue (c : Char) : Bool :=
  c = ' ' || c = '\n' || c = '\r' || c = '"' || c = '\'' || c = '=' || c = '<' || c = '>' || c = '\x60'

/-- The end of a tag, or the slash before it. -/
def TagState.close? (c : Char) : Option TagState :=
  if c = '>' then some .done else if c = '/' then some .slash else none

/-- Scans one character of a tag. -/
def TagState.step (s : TagState) (c : Char) : Option TagState :=
  match s with
  | start => if c = '/' then some endStart else if c.isAlpha then some name else none
  | endStart => if c.isAlpha then some endName else none
  | endName =>
    if isTagNameChar c then some endName
    else if isSpaceChar c then some endGap
    else if c = '>' then some done
    else none
  | endGap => if isSpaceChar c then some endGap else if c = '>' then some done else none
  | name => if isTagNameChar c then some name else if isTagSpace c then some gap else close? c
  | gap =>
    if isTagSpace c then some gap else if isAttributeStart c then some attributeName else close? c
  | attributeName =>
    if isAttributeChar c then some attributeName
    else if isTagSpace c then some afterAttribute
    else if c = '=' then some beforeValue
    else close? c
  | afterAttribute =>
    if isTagSpace c then some afterAttribute
    else if c = '=' then some beforeValue
    else if isAttributeStart c then some attributeName
    else close? c
  | beforeValue =>
    if isTagSpace c then some beforeValue
    else if c = '"' || c = '\'' then some (quoted c)
    else if endsBareValue c then none
    else some bare
  | bare =>
    if !endsBareValue c then some bare
    else if isTagSpace c then some gap
    else if c = '>' then some done
    else none
  | quoted quote => if c = quote then some afterValue else some (quoted quote)
  | afterValue => if isTagSpace c then some gap else close? c
  | slash => if c = '>' then some done else none
  | done => none

/-- The number of glyphs up to the end of a tag that the scanner is in; marks of blocks do not
belong to the tag. -/
def tagSizeFrom (s : TagState) (size : Nat) : List Glyph → Option Nat
  | [] => none
  | g :: rest =>
    if g.layer = .marker then tagSizeFrom s (size + 1) rest
    else
      match s.step g.char with
      | none => none
      | some .done => some (size + 1)
      | some next => tagSizeFrom next (size + 1) rest

/-- The number of glyphs of a tag, without its opening bracket. -/
def tagSize (afterBracket : List Glyph) : Option Nat :=
  tagSizeFrom .start 0 afterBracket

/-- Whether a line that starts with an angle bracket holds one tag and nothing else. -/
def isTagLine (afterBracket : List Char) : Bool :=
  match tagSize (glyphs .content afterBracket) with
  | some size => isBlankLine (afterBracket.drop size)
  | none => false

/-- The number of characters up to the end of the first occurrence of a text. -/
def sizeThrough (stop : List Char) : List Char → Option Nat
  | [] => if stop.isEmpty then some 0 else none
  | c :: rest =>
    if stop.isPrefixOf (c :: rest) then some stop.length
    else (sizeThrough stop rest).map (· + 1)

/-- The number of characters of a comment, a processing instruction, a declaration or a section of
character data, without its opening bracket. Character data ends at its first closing brackets,
which an angle bracket has to follow. -/
def declarationSize : List Char → Option Nat
  | '?' :: rest => (sizeThrough ['?', '>'] rest).map (· + 1)
  | '!' :: '-' :: '-' :: rest =>
    match rest with
    | '>' :: _ => some 4
    | '-' :: '>' :: _ => some 5
    | _ => (sizeThrough ['-', '-', '>'] rest).map (· + 3)
  | '!' :: '[' :: rest =>
    let opening := "CDATA[".toList
    if opening.isPrefixOf rest then
      let text := (rest.drop opening.length).takeWhile (· ≠ ']')
      let after := rest.drop (opening.length + text.length)
      let brackets := after.takeWhile (· = ']')
      if !brackets.isEmpty && (after.drop brackets.length).head? = some '>' then
        some (opening.length + text.length + brackets.length + 3)
      else none
    else none
  | '!' :: c :: rest => if c.isAlpha then (sizeThrough ['>'] rest).map (· + 2) else none
  | _ => none

/-! ## Addresses -/

/-- Whether a character may stand in the scheme of an address after its first letter. -/
def isSchemeChar (c : Char) : Bool :=
  c.isAlphanum || c = '.' || c = '-' || c = '+'

/-- Whether a character may stand in an address. -/
def isAddressChar (c : Char) : Bool :=
  ' ' < c && c ≠ '<' && c ≠ '>'

/-- An address with its scheme, up to the closing bracket. -/
def readUri (text : List Char) : Option (List Char) :=
  let scheme := text.takeWhile isSchemeChar
  match text.drop scheme.length with
  | ':' :: rest =>
    if 2 ≤ scheme.length && scheme.length ≤ 32 && (scheme.head?.any Char.isAlpha) then
      let path := rest.takeWhile isAddressChar
      match rest.drop path.length with
      | '>' :: _ => some (scheme ++ ':' :: path)
      | _ => none
    else none
  | _ => none

/-- Whether a character may stand before the at sign of a mail address. -/
def isMailChar (c : Char) : Bool :=
  c.isAlphanum || (".!#$%&'*+/=?^_\x60\x7b|\x7d~-".toList.contains c)

/-- Whether a text may stand between two dots after the at sign of a mail address. -/
def isMailLabel (label : List Char) : Bool :=
  !label.isEmpty && label.length ≤ 63 && label.head? ≠ some '-' && label.getLast? ≠ some '-'

/-- The parts of a text between dots; `part` is what has been read of the first, last first. -/
def splitAtDots (part : List Char) : List Char → List (List Char)
  | [] => [part.reverse]
  | c :: rest =>
    if c = '.' then part.reverse :: splitAtDots [] rest else splitAtDots (c :: part) rest

/-- A mail address, up to the closing bracket. -/
def readMail (text : List Char) : Option (List Char) :=
  let user := text.takeWhile isMailChar
  match text.drop user.length with
  | '@' :: rest =>
    let host := rest.takeWhile fun c => c.isAlphanum || c = '-' || c = '.'
    match rest.drop host.length with
    | '>' :: _ =>
      if !user.isEmpty && (splitAtDots [] host).all isMailLabel then some (user ++ '@' :: host)
      else none
    | _ => none
  | _ => none

/-- The address between angle brackets: where it leads, and how it reads. -/
def readAddress (afterBracket : List Char) : Option (List Char × List Char) :=
  match readUri afterBracket with
  | some uri => some (uri, uri)
  | none => (readMail afterBracket).map fun mail => ("mailto:".toList ++ mail, mail)

end DocWeave.Markdown
