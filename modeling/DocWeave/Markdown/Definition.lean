import DocWeave.Markdown.Link

/-!
# Definitions of labels

A definition names an address by a label: the label in brackets, a colon, a destination and perhaps a
title. Between these parts, and in label and title, lines may end.

- `Definition`: a label with its target.
- `FollowingLine`: what a reader has to know about a line below the one on which a definition starts.
- `Definition.read`: the definition at the start of a line.
-/

namespace DocWeave.Markdown

/-- A definition of a label. -/
structure Definition where
  /-- The label as it is compared. -/
  label : List Char
  /-- Where links with the label lead. -/
  target : Target
deriving Repr

/-- A line below the one on which a definition starts. -/
structure FollowingLine where
  /-- Whether running text may go on with the line. -/
  goesOn : Bool
  /-- The line with the marks of containers and the indentation before its text. -/
  glyphs : List Glyph
  /-- The line after the marks of containers, if it has the marks of all of them and is not blank.
  -/
  inside? : Option (List Char)

/-- What is known about the first of some lines. -/
abbrev Outlook := List SourceLine → Option FollowingLine

/-- A place in the lines of a definition: what follows on the line, the lines after it, and the
number of lines passed. -/
structure DefinitionPlace where
  text : List Char
  rest : List SourceLine
  passed : Nat := 0

/-- The text of a line. -/
def FollowingLine.text (line : FollowingLine) : List Char :=
  (line.glyphs.filter (·.isContent)).map (·.char)

/-- The next line, if running text may go on with it. -/
def Outlook.next? (look : Outlook) (rest : List SourceLine) : Option FollowingLine :=
  (look rest).filter (·.goesOn)

/-- The label that goes on with some glyphs, and the place after its closing bracket. -/
def readDefinitionLabel (look : Outlook) (passed : Nat) (r : LabelReader) (line : List Glyph)
    (rest : List SourceLine) : Option (List Char × DefinitionPlace) :=
  match r.run line with
  | .failed => none
  | .closed label size => some (label, ⟨rawText (line.drop (size - r.size + 1)), rest, passed⟩)
  | .goesOn r =>
    match rest with
    | [] => none
    | first :: more =>
      match look.next? (first :: more) with
      | none => none
      | some next =>
        readDefinitionLabel look (passed + 1) r (⟨'\n', .content⟩ :: next.glyphs) more

/-- The place after white space in which one line may end. None if the text ends there. -/
def DefinitionPlace.skipSpace (look : Outlook) (p : DefinitionPlace) : Option DefinitionPlace :=
  let text := p.text.dropWhile isSpaceChar
  if !text.isEmpty then some { p with text := text }
  else
    match look.next? p.rest with
    | none => none
    | some next =>
      let text := next.text.dropWhile isSpaceChar
      if text.isEmpty then none else some ⟨text, p.rest.drop 1, p.passed + 1⟩

/-- A title up to the closing delimiter on a line, as written, and what follows it; or all of the
line, if the title goes on. None if the title holds its opening parenthesis. -/
def readTitleLine (closing : Char) (skip : Nat) : List Char → Option (List Char × Option (List Char))
  | [] => some ([], none)
  | c :: rest =>
    let next (skip : Nat) := (readTitleLine closing skip rest).map fun r => (c :: r.1, r.2)
    match skip with
    | k + 1 => next k
    | 0 =>
      if c = closing then some ([], some rest)
      else if closing = ')' && c = '(' then none
      else if c = '\\' then next 1
      else next 0

/-- A title after its opening delimiter, as written, and the place after the closing one. -/
def readTitleLines (look : Outlook) (closing : Char) (passed : Nat) (text : List Char)
    (rest : List SourceLine) : Option (List Char × DefinitionPlace) :=
  match readTitleLine closing 0 text with
  | none => none
  | some (title, some after) => some (title, ⟨after, rest, passed⟩)
  | some (title, none) =>
    match rest with
    | [] => none
    | first :: more =>
      match (look (first :: more)).bind (·.inside?) with
      | none => none
      | some next =>
        (readTitleLines look closing (passed + 1) next more).map fun r => (title ++ '\n' :: r.1, r.2)

/-- A title with its delimiters, after which the line ends. -/
def DefinitionPlace.readTitle (look : Outlook) (p : DefinitionPlace) :
    Option (List Char × DefinitionPlace) :=
  let titled (closing : Char) (text : List Char) :=
    (readTitleLines look closing p.passed text p.rest).filter fun r => isBlankLine r.2.text
  match p.text with
  | '"' :: text => titled '"' text
  | '\'' :: text => titled '\'' text
  | '(' :: text => titled ')' text
  | _ => none

/-- A destination and perhaps a title, after the colon; with the number of lines passed. A title
that is malformed is text of its own if it starts a line, and makes the definition fail otherwise.
-/
def DefinitionPlace.readTarget (look : Outlook) (p : DefinitionPlace) : Option (Target × Nat) := do
  let p ← p.skipSpace look
  let (destination, size) ← readDestination p.text
  if size = 0 then none
  else
    let destination := unescape false destination
    let after : DefinitionPlace := { p with text := p.text.drop size }
    let untitled := (Target.mk destination [], after.passed)
    match after.skipSpace look with
    | none => some untitled
    | some start =>
      if start.passed = after.passed && start.text.length = after.text.length then none
      else
        match start.readTitle look with
        | some (title, last) => some (⟨destination, unescape false title⟩, last.passed)
        | none => if after.passed < start.passed then some untitled else none

/-- The definition at the start of a line of text, and the number of further lines that it takes. -/
def Definition.read (look : Outlook) (text : List Char) (rest : List SourceLine) :
    Option (Definition × Nat) :=
  match text with
  | '[' :: inner =>
    match readDefinitionLabel look 0 {} (glyphs .content inner) rest with
    | some (label, place) =>
      match place.text with
      | ':' :: after =>
        ({ place with text := after }.readTarget look).map fun (target, lines) =>
          (⟨normalizeLabel label, target⟩, lines)
      | _ => none
    | none => none
  | _ => none

end DocWeave.Markdown
