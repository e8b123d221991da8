import DocWeave.Markdown.Definition
import DocWeave.Markdown.Emphasis
import DocWeave.Markdown.Tag

/-!
# Running text

Running text is read once from left to right. Escapes, references, code, HTML and addresses are settled
where they start; brackets wait for their partner, and runs of delimiters for the end of the text
around them.

- `codeSpan`, `markupAt`, `escapeAt`: what a backtick, an angle bracket or a backslash starts.
- `InlineState`: the parts read so far, and the brackets that wait.
- `InlineState.step`: one glyph.
- `readInlines`: the parts of running text.
-/

namespace DocWeave.Markdown

/-! ## Code -/

/-- What stands before the next run of exactly `size` backticks. `run` counts the backticks just
read, `read` holds the glyphs so far, last first. -/
def beforeRun (size run : Nat) (read : List Glyph) : List Glyph → Option (List Glyph)
  | [] => if run = size then some (read.drop size).reverse else none
  | g :: rest =>
    if g.is '\x60' then beforeRun size (run + 1) (g :: read) rest
    else if run = size then some (read.drop size).reverse
    else beforeRun size 0 (g :: read) rest

/-- Replaces escaped bars by bars, as they are in the cells of a table. -/
def unescapeBars : List Char → List Char
  | '\\' :: '|' :: rest => '|' :: unescapeBars rest
  | c :: rest => c :: unescapeBars rest
  | [] => []

/-- The text of code: line ends are spaces, and one space is dropped at either end if both ends have
one and there is more than spaces. Indentation that is too short for a list item does not belong to
the code if the code ends with it. -/
def codeText (inTable : Bool) (content : List Glyph) : List Char :=
  let content := (content.reverse.dropWhile (·.layer = .shallow)).reverse
  let text := (unmarkedText content).map fun c => if c = '\n' || c = '\r' then ' ' else c
  let text := if inTable then unescapeBars text else text
  match text with
  | ' ' :: inner =>
    if inner.getLast? = some ' ' && !text.all (· = ' ') then inner.dropLast else text
  | _ => text

/-- The code that starts after a run of backticks, and the number of glyphs up to its end. -/
def codeSpan (inTable : Bool) (size : Nat) (rest : List Glyph) : Option (Inline × Nat) :=
  if size = 0 then none
  else
    (beforeRun size 0 [] rest).map fun content =>
      (.code (codeText inTable content), content.length + size)

/-! ## The state -/

/-- A bracket that waits for its partner. -/
structure OpenBracket where
  /-- Whether the bracket opens an image. -/
  image : Bool
  /-- Whether the bracket can open a link. -/
  active : Bool
  /-- What follows the bracket. -/
  after : List Glyph
  /-- The number of glyphs up to the bracket, and with it. -/
  start : Nat
  /-- The tokens before the bracket, last first. -/
  before : List Token

/-- What is known in the middle of running text. -/
structure InlineState where
  /-- How many more bytes the targets of labels may take. -/
  allowance : Nat
  /-- The number of glyphs that have been passed. -/
  position : Nat := 0
  /-- How many of the following glyphs have been read already. -/
  skip : Nat := 0
  /-- The character before, if it is text of the same line. -/
  previous : Option Char := none
  /-- Whether the glyph before is white space that does not belong to the text. -/
  afterGap : Bool := false
  /-- The tokens after the innermost open bracket, last first. -/
  tokens : List Token := []
  /-- The open brackets, innermost first. -/
  brackets : List OpenBracket := []
  /-- Closing brackets of labels that have no definition, by the number of glyphs before them. -/
  refused : List Nat := []

/-- What the text around is: whether it is the cell of a table, and what labels stand for. -/
structure InlineContext where
  /-- Whether the text is the cell of a table. -/
  inTable : Bool
  /-- The definitions of labels. -/
  definitions : List Definition

/-- The target of a label. -/
def InlineContext.target? (ctx : InlineContext) (label : List Char) : Option Target :=
  let key := normalizeLabel label
  (ctx.definitions.find? fun d => d.label = key).map (·.target)

/-- The number of glyphs of white space after the end of a heading at the start of a text. -/
def tailSize (gs : List Glyph) : Nat :=
  (gs.takeWhile (·.layer = .tail)).length

namespace InlineState

/-- Adds a token and passes over further glyphs. -/
def emit (s : InlineState) (t : Token) (skip : Nat) : InlineState :=
  { s with tokens := t :: s.tokens, skip := skip }

/-- Adds characters that mean themselves and passes over further glyphs. -/
def emitText (s : InlineState) (text : List Char) (skip : Nat) : InlineState :=
  { s with tokens := (text.map fun c => Token.part (.char c)).reverse ++ s.tokens, skip := skip }

/-- Adds a token that takes some glyphs of `rest`. White space after it at the end of a heading does
not count. -/
def emitSealed (s : InlineState) (t : Token) (size : Nat) (rest : List Glyph) : InlineState :=
  s.emit t (size + tailSize (rest.drop size))

/-! ## Brackets -/

/-- A bracket that has no partner means itself. -/
def OpenBracket.release (b : OpenBracket) (tokens : List Token) : List Token :=
  let mark : List Token :=
    if b.image then [.part (.char '['), .part (.char '!')] else [.part (.char '[')]
  tokens ++ mark ++ b.before

/-- The tokens inside a link, given last first. A backslash before a line end at the very end means
itself if there is a run of delimiters before it. -/
def linkTokens (tokens : List Token) : List Token :=
  match tokens with
  | .escapedEnd :: before => if before.any Token.isRun then .part (.char '\\') :: before else tokens
  | _ => tokens

/-- Makes a link or an image of what follows the innermost bracket. No link holds another one. -/
def makeLink (s : InlineState) (b : OpenBracket) (outer : List OpenBracket) (target : Target)
    (skip : Nat) : InlineState :=
  let children := resolve (linkTokens s.tokens).reverse
  let part : Inline :=
    if b.image then .image target.destination target.title children
    else .link target.destination target.title children
  let outer :=
    if b.image then outer
    else outer.map fun o => if o.image then o else { o with active := false }
  { s with tokens := .part part :: b.before, brackets := outer, skip := skip }

/-- Makes a link to the target of a label, if there is one and its bytes are still allowed; of the
glyphs in `rest` the link takes some. -/
def makeReference? (ctx : InlineContext) (s : InlineState) (b : OpenBracket)
    (outer : List OpenBracket) (label : List Char) (size : Nat) (rest : List Glyph) :
    Option InlineState :=
  if s.allowance = 0 then none
  else
    (ctx.target? label).map fun target =>
      { s with allowance := s.allowance - target.size }.makeLink b outer target
        (size + tailSize (rest.drop size))

/-- The number of glyphs of a bracket that opens a label, which may be escaped. -/
def labelBracketSize : List Glyph → Nat
  | g :: h :: _ => if g.is '[' then 1 else if g.is '\\' && h.is '[' then 2 else 0
  | [g] => if g.is '[' then 1 else 0
  | [] => 0

/-- A closing bracket, before `rest`. -/
def closeBracket (ctx : InlineContext) (s : InlineState) (rest : List Glyph) : InlineState :=
  match s.brackets with
  | [] => s.emitText [']'] 0
  | b :: outer =>
    let literal : InlineState :=
      { s with tokens := .part (.char ']') :: OpenBracket.release b s.tokens, brackets := outer }
    if !b.active then literal
    else
      match Target.read ctx.inTable rest with
      | some (target, size) => s.makeLink b outer target size
      | none =>
        let byOwnText (size : Nat) : InlineState :=
          match readLabel ctx.inTable b.after with
          | none => literal
          | some (label, length) =>
            if s.refused.contains s.position || b.start + length ≠ s.position then literal
            else (makeReference? ctx s b outer label size rest).getD literal
        let lead := labelBracketSize rest
        let inner := rest.drop lead
        if lead = 0 then byOwnText 0
        else if inner.head?.any (·.is ']') then byOwnText (lead + 1)
        else
          match readLabel ctx.inTable inner with
          | none => byOwnText 0
          | some (label, length) =>
            (makeReference? ctx s b outer label (lead + length + 1) rest).getD
              { literal with refused := (s.position + 1 + lead + length) :: s.refused }

/-! ## Single glyphs -/

/-- A backslash, before `rest`. -/
def escape (ctx : InlineContext) (s : InlineState) (rest : List Glyph) : InlineState :=
  match rest with
  | [] => s.emitText ['\\'] 0
  | g :: more =>
    let ending := lineEndSize rest
    if ending ≠ 0 then s.emit .escapedEnd ending
    else if g.is '\x60' then
      let run := (rest.takeWhile (·.is '\x60')).length
      match codeSpan ctx.inTable (run - 1) (rest.drop run) with
      | some (code, size) => (s.emitText ['\x60'] 0).emitSealed (.part code) (run + size) rest
      | none => s.emitText (List.replicate run '\x60') run
    else if ctx.inTable && g.is '\\' && (more.head?.any (·.is '|')) then s.emitText ['|'] 2
    else if Text.isAsciiPunctuation g.char then s.emitText [g.char] 1
    else s.emitText ['\\'] 0

/-- White space, before `rest`: at the end of a line it is a line end, which is kept if there is
more white space on either side. -/
def space (s : InlineState) (c : Char) (rest : List Glyph) : InlineState :=
  let more := (rest.takeWhile fun g => g.isContent && isSpaceChar g.char).length
  let ending := lineEndSize (rest.drop more)
  if ending = 0 then s.emitText [c] 0
  else s.emit (.part (if 0 < more || s.afterGap then .hardBreak else .softBreak)) (more + ending)

/-- The address between an angle bracket, before `rest`, and the closing one. -/
def addressAt (rest : List Glyph) : Option (List Char × List Char) :=
  let word := rest.takeWhile fun g => isAddressChar g.char
  match rest.drop word.length with
  | g :: _ => if g.char = '>' then readAddress (rawText word ++ ['>']) else none
  | [] => none

/-- The number of glyphs of a declaration or the like after an angle bracket, before `rest`. -/
def declarationAt (rest : List Glyph) : Option Nat :=
  if rest.head?.any fun g => g.char = '!' || g.char = '?' then declarationSize (rawText rest) else none

/-- An angle bracket, before `rest`. -/
def angle (s : InlineState) (rest : List Glyph) : InlineState :=
  if rest.head?.any (·.char = '\\') then s.emitText ['<'] 0
  else
    match addressAt rest with
    | some (destination, shown) =>
      s.emit (.part (.link destination [] (shown.map .char))) (shown.length + 1)
    | none =>
      match declarationAt rest with
      | some size => s.emit (.part (.html ('<' :: rawText (rest.take size)))) size
      | none =>
        match tagSize rest with
        | some size => s.emit (.part (.html ('<' :: unmarkedText (rest.take size)))) size
        | none => s.emitText ['<'] 0

/-- A run of delimiters that starts with `c`, before `rest`. -/
def delimiters (s : InlineState) (c : Char) (rest : List Glyph) : InlineState :=
  let more := (rest.takeWhile (·.is c)).length
  let size := more + 1
  let after := rest.drop more
  let run := Run.ofContext c size s.previous (after.head?.map (·.char))
  if (run.canOpen || run.canClose) && (c ≠ '~' || size ≤ 2) then
    let tail := rawText (after.take (tailSize after))
    s.emit (.run { run with tail := tail }) (more + tail.length)
  else s.emitText (List.replicate size c) more

/-- A reference after an ampersand, before `rest`. -/
def reference (s : InlineState) (rest : List Glyph) : InlineState :=
  match readEntity ('&' :: rawText (rest.take maxReference)) with
  | some (value, size) => s.emitText value (size - 1 + tailSize (rest.drop (size - 1)))
  | none => s.emitText ['&'] 0

/-- Reads a character of the text, before `rest`. -/
def readChar (ctx : InlineContext) (s : InlineState) (c : Char) (rest : List Glyph) : InlineState :=
  if c = '\\' then s.escape ctx rest
  else if c = '&' then s.reference rest
  else if c = '\x60' then
    let more := (rest.takeWhile (·.is '\x60')).length
    match codeSpan ctx.inTable (more + 1) (rest.drop more) with
    | some (code, size) => s.emitSealed (.part code) (more + size) rest
    | none => s.emitText (List.replicate (more + 1) '\x60') more
  else if c = '<' then s.angle rest
  else if c = '!' && (rest.head?.any (·.is '[')) then
    let b : OpenBracket := ⟨true, true, rest.drop 1, s.position + 2, s.tokens⟩
    { s with tokens := [], brackets := b :: s.brackets, skip := 1 }
  else if c = '[' then
    let b : OpenBracket := ⟨false, true, rest, s.position + 1, s.tokens⟩
    { s with tokens := [], brackets := b :: s.brackets }
  else if c = ']' then s.closeBracket ctx rest
  else if c = '*' || c = '_' || c = '~' then s.delimiters c rest
  else if c = '\n' || c = '\r' then
    s.emit (.part .softBreak) (lineEndSize (⟨c, .content⟩ :: rest) - 1)
  else if isSpaceChar c then s.space c rest
  else s.emitText [c] 0

/-- Reads one glyph, before `rest`. -/
def step (ctx : InlineContext) (s : InlineState) (g : Glyph) (rest : List Glyph) : InlineState :=
  let read :=
    match s.skip with
    | k + 1 => { s with skip := k }
    | 0 =>
      if g.isContent then s.readChar ctx g.char rest
      else if g.layer = Layer.tail then s.emitText [g.char] 0
      else s
  { read with
    position := s.position + 1
    previous := if g.isContent && !g.isLineEnd then some g.char else none
    afterGap := !g.isContent && isSpaceChar g.char }

/-- Reads glyphs. -/
def run (ctx : InlineContext) (s : InlineState) : List Glyph → InlineState
  | [] => s
  | g :: rest => (s.step ctx g rest).run ctx rest

/-- All tokens in order; brackets that are still open mean themselves. -/
def allTokens (s : InlineState) : List Token :=
  (s.brackets.foldl (fun tokens b => OpenBracket.release b tokens) s.tokens).reverse

end InlineState

/-- The parts of running text, and what is left of the bytes that the targets of labels may take. -/
def readInlines (ctx : InlineContext) (allowance : Nat) (content : List Glyph) : List Inline × Nat :=
  let s := InlineState.run ctx { allowance := allowance } content
  (resolve s.allTokens, s.allowance)

end DocWeave.Markdown
