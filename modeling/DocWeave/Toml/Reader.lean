import DocWeave.Toml.Item
import DocWeave.Toml.Quoted

/-!
# Reading TOML

- `readValue`: a value of any kind at the start of a text.
- `readDocument`: the lines of a document.
- `parse`: the table that a document is, or none if it is malformed.
-/

namespace DocWeave.Toml

/-! ## Blanks and comments -/

/-- Skips spaces, line ends and comments. -/
def skipLines (inComment : Bool) : List Char → Option (List Char)
  | [] => some []
  | c :: rest =>
    if c = '\n' then skipLines false rest
    else if c = '\r' then if rest.head? = some '\n' then skipLines inComment rest else none
    else if inComment then if isPlain c then skipLines true rest else none
    else if isSpace c then skipLines false rest
    else if c = '#' then skipLines true rest
    else some (c :: rest)

/-- Reads the rest of a line, in which only spaces and a comment may stand. -/
def endLine (inComment : Bool) : List Char → Option (List Char)
  | [] => some []
  | c :: rest =>
    if c = '\n' then some rest
    else if c = '\r' then if rest.head? = some '\n' then endLine inComment rest else none
    else if inComment then if isPlain c then endLine true rest else none
    else if isSpace c then endLine false rest
    else if c = '#' then endLine true rest
    else none

/-- Skips spaces. -/
def skipSpaces (s : List Char) : List Char :=
  s.dropWhile isSpace

/-! ## Keys -/

/-- Characters of a key without quotes. -/
def isKeyChar (c : Char) : Bool :=
  c.isAlphanum || c = '_' || c = '-'

/-- One part of a key. -/
def readKeyPart (s : List Char) : Option (String × List Char) :=
  if startsTripled s then none
  else if s.head? = some '"' || s.head? = some '\'' then
    (readLineString s).map fun (text, rest) => (String.ofList text, rest)
  else
    let name := s.takeWhile isKeyChar
    if name = [] then none else some (String.ofList name, s.drop name.length)

/-- A key of at most `limit` parts, with dots between them. -/
def readKeyParts : Nat → List Char → Option (List String × List Char)
  | 0, _ => none
  | limit + 1, s => do
    let (part, rest) ← readKeyPart s
    match skipSpaces rest with
    | '.' :: rest =>
      let (parts, rest) ← readKeyParts limit (skipSpaces rest)
      return (part :: parts, rest)
    | rest => return ([part], rest)

/-- How many parts a dotted key may have. -/
def maxKeyParts : Nat := 80

/-- A key, which may be dotted, and the spaces after it. -/
def readKey (s : List Char) : Option (List String × List Char) :=
  readKeyParts maxKeyParts s

/-! ## Values -/

/-- Whether a character ends a value without quotes. -/
def endsBare (c : Char) : Bool :=
  isSpace c || [',', ']', '[', '\x7b', '\x7d', '#', '=', '"', '\'', '\n', '\r'].contains c

/-- A value without quotes. A space may stand between a date and a time. -/
def readBare (s : List Char) : Option (Value × List Char) :=
  let first := s.takeWhile (!endsBare ·)
  let rest := s.drop first.length
  let text :=
    match rest with
    | ' ' :: c :: more =>
      if isDate first && isDigit c then first ++ ' ' :: (c :: more).takeWhile (!endsBare ·) else first
    | _ => first
  (bareValue? text).map fun value => (value, s.drop text.length)

/-- How deep arrays and tables in braces may be nested. -/
def maxDepth : Nat := 80

mutual

/-- A value, in which arrays and tables in braces are nested at most `depth` deep. -/
def readValue (depth : Nat) : Nat → List Char → Option (Value × List Char)
  | 0, _ => none
  | fuel + 1, s =>
    match s with
    | '[' :: rest => if depth = 0 then none else readArray (depth - 1) fuel [] rest
    | '\x7b' :: rest => if depth = 0 then none else readInlineTable (depth - 1) fuel [] rest
    | '"' :: _ | '\'' :: _ =>
      (readString s).map fun (text, rest) => (.string (String.ofList text), rest)
    | s => readBare s

/-- The rest of an array; `items` are its values so far, last first. -/
def readArray (depth : Nat) : Nat → List Value → List Char → Option (Value × List Char)
  | 0, _, _ => none
  | fuel + 1, items, s => do
    match ← skipLines false s with
    | ']' :: rest => return (.array items.reverse, rest)
    | s =>
      let (value, rest) ← readValue depth fuel s
      match ← skipLines false rest with
      | ',' :: rest => readArray depth fuel (value :: items) rest
      | ']' :: rest => return (.array (value :: items).reverse, rest)
      | _ => none

/-- The rest of a table in braces; `items` are its keys so far. Its equals signs and commas may
stand on lines of their own. -/
def readInlineTable (depth : Nat) : Nat → Items → List Char → Option (Value × List Char)
  | 0, _, _ => none
  | fuel + 1, items, s => do
    match ← skipLines false s with
    | '\x7d' :: rest => return (.table (fieldsOf items), rest)
    | s =>
      let (keys, rest) ← readKey s
      match ← skipLines false rest with
      | '=' :: rest =>
        let (value, rest) ← readValue depth fuel (← skipLines false rest)
        let items ← insert keys value items
        match ← skipLines false rest with
        | ',' :: rest => readInlineTable depth fuel items rest
        | '\x7d' :: rest => return (.table (fieldsOf items), rest)
        | _ => none
      | _ => none

end

/-! ## Documents -/

/-- The lines of a document. `header` names the table that is open. -/
def readDocument : Nat → List String → Items → List Char → Option Items
  | 0, _, _, _ => none
  | fuel + 1, header, root, s => do
    match ← skipLines false s with
    | [] => return root
    | '[' :: '[' :: rest =>
      let (keys, rest) ← readKey (skipSpaces rest)
      match rest with
      | ']' :: ']' :: rest =>
        let root ← openElement keys root
        readDocument fuel keys root (← endLine false rest)
      | _ => none
    | '[' :: rest =>
      let (keys, rest) ← readKey (skipSpaces rest)
      match rest with
      | ']' :: rest =>
        let root ← openTable keys root
        readDocument fuel keys root (← endLine false rest)
      | _ => none
    | s =>
      let (keys, rest) ← readKey s
      match rest with
      | '=' :: rest =>
        let (value, rest) ← readValue maxDepth (2 * rest.length + 2) (skipSpaces rest)
        let root ← changeTable header (insert keys value) root
        readDocument fuel header root (← endLine false rest)
      | _ => none

/-- A text without the byte order mark at its start. -/
def dropMark : List Char → List Char
  | '\ufeff' :: rest => rest
  | s => s

/-- The table that a document is; none if it is malformed. -/
def parse (text : String) : Option Fields :=
  let s := dropMark text.toList
  (readDocument (s.length + 1) [] [] s).map fieldsOf

end DocWeave.Toml
