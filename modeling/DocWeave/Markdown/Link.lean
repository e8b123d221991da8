import DocWeave.Markdown.Entity
import DocWeave.Markdown.Label

/-!
# Addresses of links

The address of a link is written behind its text, or in the definition of its label.

- `readDestination`: where a link leads.
- `readTitle`: a title behind the text of a link.
- `Target.read`: the address behind the text of a link.
-/

namespace DocWeave.Markdown

/-! ## Destinations -/

/-- The length of a destination between angle brackets, after the opening one. -/
def pointedSize (skip : Nat) (size : Nat) : List Char → Option Nat
  | [] => none
  | c :: rest =>
    match skip with
    | k + 1 => pointedSize k (size + 1) rest
    | 0 =>
      if c = '>' then some size
      else if c = '<' || c = '\n' || c = '\r' then none
      else if c = '\\' && (rest.head?.any Text.isAsciiPunctuation) then pointedSize 1 (size + 1) rest
      else pointedSize 0 (size + 1) rest

/-- How deep parentheses may nest in a destination. -/
def maxNesting : Nat := 32

/-- The length of a destination without brackets. -/
def plainSize (skip nesting size : Nat) : List Char → Option Nat
  | [] => if nesting = 0 then some size else none
  | c :: rest =>
    match skip with
    | k + 1 => plainSize k nesting (size + 1) rest
    | 0 =>
      if c ≤ ' ' then if nesting = 0 then some size else none
      else if c = '(' then
        if maxNesting < nesting then none else plainSize 0 (nesting + 1) (size + 1) rest
      else if c = ')' then
        match nesting with
        | 0 => some size
        | n + 1 => plainSize 0 n (size + 1) rest
      else if c = '\\' && (rest.head?.any Text.isAsciiPunctuation) then
        plainSize 1 nesting (size + 1) rest
      else plainSize 0 nesting (size + 1) rest

/-- A destination as written, and the number of characters that it takes. -/
def readDestination (text : List Char) : Option (List Char × Nat) :=
  match text with
  | '<' :: rest => (pointedSize 0 0 rest).map fun n => (rest.take n, n + 2)
  | _ => (plainSize 0 0 0 text).map fun n => (text.take n, n)

/-! ## The address behind the text of a link -/

/-- An address with a title. -/
structure Target where
  /-- Where the link leads. -/
  destination : List Char
  /-- The title; empty if there is none. -/
  title : List Char
deriving Repr

/-- The number of bytes of a target. -/
def Target.size (t : Target) : Nat :=
  (t.destination ++ t.title).foldl (fun n c => n + c.utf8Size) 0

/-- The number of glyphs of the white space at the start of a text, with one line end at most. -/
def separatorSize (gs : List Glyph) : Nat :=
  let spaces := gs.takeWhile fun g => g.isContent && isSpaceChar g.char
  let rest := gs.drop spaces.length
  let ending := lineEndSize rest
  if ending = 0 then spaces.length
  else
    let marks := (rest.drop ending).takeWhile fun g => !g.isContent
    let more := (rest.drop (ending + marks.length)).takeWhile fun g =>
      g.isContent && isSpaceChar g.char
    spaces.length + ending + marks.length + more.length

/-- The character of a title that a backslash stands for, with the number of glyphs after the
backslash that it takes. In a table two backslashes and a bar stand for the bar, unless punctuation
follows, which then takes its place. -/
def titleEscape (inTable : Bool) : List Glyph → Char × Nat
  | [] => ('\\', 0)
  | g :: rest =>
    if inTable && g.char = '\\' && rest.head?.any (·.char = '|') then
      match rest.drop 1 with
      | h :: _ => if Text.isAsciiPunctuation h.char then (h.char, 3) else ('|', 2)
      | [] => ('|', 2)
    else if Text.isAsciiPunctuation g.char then (g.char, 1)
    else ('\\', 0)

/-- A title up to the closing delimiter, with the number of glyphs read. Marks and indentation after
a line end do not belong to it, nor does an escaping backslash that starts the line (`starts`): the
character after it is read as if it stood alone. -/
def titleText (inTable : Bool) (opening closing : Char) (starts : Bool) (skip : Nat) :
    List Glyph → Option (List Char × Nat)
  | [] => none
  | g :: rest =>
    let next (starts : Bool) (read : List Char) (skip : Nat) :=
      (titleText inTable opening closing starts skip rest).map fun r => (read ++ r.1, r.2 + 1)
    match skip with
    | k + 1 => next false [] k
    | 0 =>
      if !g.isContent then next starts [] 0
      else if g.char = closing then some ([], 1)
      else if g.char = opening then none
      else if g.isLineEnd then
        next true [if g.char = '\r' && rest.head?.any (·.is '\n') then '\r' else '\n'] 0
      else if g.char = '&' then
        match readEntity ('&' :: rawText (rest.take maxReference)) with
        | some (value, size) => next false value (size - 1)
        | none => next false ['&'] 0
      else if g.char = '\\' then
        if starts && rest.head?.any (Text.isAsciiPunctuation ·.char) then next false [] 0
        else
          let (c, size) := titleEscape inTable rest
          next false [c] size
      else next false [g.char] 0

/-- A title with its delimiters, and the number of glyphs read. -/
def readTitle (inTable : Bool) : List Glyph → Option (List Char × Nat)
  | g :: rest =>
    let titled (closing : Char) :=
      (titleText inTable g.char closing false 0 rest).map fun r => (r.1, r.2 + 1)
    if g.is '"' || g.is '\'' then titled g.char else if g.is '(' then titled ')' else none
  | [] => none

/-- The address behind the text of a link, and the number of glyphs that it takes. -/
def Target.read (inTable : Bool) (gs : List Glyph) : Option (Target × Nat) :=
  match gs with
  | [] => none
  | g :: rest =>
    if !g.is '(' then none
    else
      let start := separatorSize rest
      let rest := rest.drop start
      let line := rest.takeWhile fun g => g.char ≠ '\n' && g.char ≠ '\r'
      match readDestination (rawText line) with
      | none => none
      | some (destination, size) =>
        let rest := rest.drop size
        let gap := separatorSize rest
        let rest := rest.drop gap
        let (title, titleSize) := (readTitle inTable rest).getD ([], 0)
        let rest := rest.drop titleSize
        let last := if titleSize = 0 then 0 else separatorSize rest
        match rest.drop last with
        | h :: _ =>
          if h.is ')' then
            some (⟨unescape inTable destination, title⟩, start + size + gap + titleSize + last + 2)
          else none
        | [] => none

end DocWeave.Markdown
