import DocWeave.Directive.Automodule
import DocWeave.Node.Basic
import DocWeave.Page.Fence
import DocWeave.Text.Parts

/-!
# Documents

The source of a page is Markdown. Every line with a valid `automodule` directive outside of fenced code
becomes a place for the documentation of a module; the lines between them stay Markdown.

- `Pending`, `Block`, `Document`: a page with places for documentation.
- `Piece`: what becomes of one line; `readPieces`: of all lines.
- `Warning`: directives that were ignored, or partly ignored.
- `parse`: the document of a source, with its warnings.
-/

namespace DocWeave.Page

open Directive (Leaf ModuleError)

/-- A place for the documentation of a module. -/
structure Pending where
  /-- What is asked of Sphinx. -/
  request : Request
  /-- The line of the directive, counted from one. -/
  line : Nat
  /-- The documentation, once it is there. -/
  children : List Node := []
deriving Repr

/-- A part of a document. -/
inductive Block where
  /-- Markdown, kept as it is with its line ends. -/
  | markdown (value : String)
  /-- A place for documentation. -/
  | autodoc (place : Pending)
deriving Repr

/-- A document: Markdown and places for documentation. -/
structure Document where
  /-- The parts in order. -/
  blocks : List Block
deriving Repr

/-- The place that a block is, if it is one. -/
def Block.place? : Block → Option Pending
  | .markdown _ => none
  | .autodoc place => some place

/-- The places for documentation, in order. -/
def Document.places (d : Document) : List Pending :=
  d.blocks.filterMap Block.place?

/-- The Markdown that a block is, if it is Markdown. -/
def Block.markdown? : Block → Option String
  | .markdown value => some value
  | .autodoc _ => none

/-- Changes the place that a block is. -/
def Block.mapPlace (f : Pending → Pending) : Block → Block
  | .markdown value => .markdown value
  | .autodoc place => .autodoc (f place)

/-- Changes every place for documentation. -/
def Document.mapPlaces (f : Pending → Pending) (d : Document) : Document :=
  ⟨d.blocks.map (Block.mapPlace f)⟩

/-- Fills the place with some number, counted from zero, in blocks. -/
def fillBlocks (children : List Node) : Nat → List Block → List Block
  | _, [] => []
  | i, .markdown value :: rest => .markdown value :: fillBlocks children i rest
  | 0, .autodoc place :: rest => .autodoc { place with children := children } :: rest
  | i + 1, .autodoc place :: rest => .autodoc place :: fillBlocks children i rest

/-- Fills the place with some number, counted from zero; whatever it held is replaced. -/
def Document.fillPlace (d : Document) (i : Nat) (children : List Node) : Document :=
  ⟨fillBlocks children i d.blocks⟩

/-- A directive that was ignored, or partly ignored, with its line. -/
inductive Warning where
  /-- The directive names no module, or none that is valid. -/
  | badModule (line : Nat) (error : ModuleError)
  /-- The directive has an attribute that is no option. -/
  | unknownOption (line : Nat) (key : String)
deriving Repr, DecidableEq

/-- The wording of a warning. -/
def Warning.message : Warning → String
  | .badModule line error => error.message line
  | .unknownOption line key =>
    "line " ++ Nat.repr line ++ ": unknown automodule option '" ++ key ++ "' ignored"

/-- What a line asks for. -/
inductive LineRole where
  /-- The line is Markdown. -/
  | text
  /-- The line is a directive that cannot be followed, and stays Markdown. -/
  | rejected (error : ModuleError)
  /-- The line is a directive. -/
  | accepted (request : Request) (unknown : List String)
deriving Repr, DecidableEq

/-- The role of a line outside of fenced code. -/
def LineRole.ofLine (line : List Char) : LineRole :=
  match Leaf.parse line with
  | none => .text
  | some leaf =>
    if leaf.name = Directive.automodule then
      match Directive.requestOf leaf.args with
      | .error e => .rejected e
      | .ok request => .accepted request (Directive.unknownKeys leaf.args)
    else .text

/-- A line of the source with its role. -/
structure Piece where
  /-- The line as it stands in the source, with its line end. -/
  raw : List Char
  /-- The line number, counted from one. -/
  line : Nat
  /-- What the line asks for. -/
  role : LineRole
deriving Repr

/-- The lines of a source with their roles. `line` is the number of the first of them. -/
def readPieces (state : FenceState) (line : Nat) : List (List Char) → List Piece
  | [] => []
  | raw :: rest =>
    let text := Text.dropLineEnd raw
    let role := if state.covers text then .text else .ofLine text
    ⟨raw, line, role⟩ :: readPieces (state.next text) (line + 1) rest

/-- The warnings about a line. -/
def Piece.warnings (p : Piece) : List Warning :=
  match p.role with
  | .text => []
  | .rejected error => [.badModule p.line error]
  | .accepted _ unknown => unknown.map (.unknownOption p.line)

/-- Puts a line of Markdown in front of blocks, joining it to a Markdown block that stands there. -/
def consMarkdown (raw : List Char) : List Block → List Block
  | .markdown value :: rest => .markdown (String.ofList raw ++ value) :: rest
  | blocks => .markdown (String.ofList raw) :: blocks

/-- The blocks of the lines of a source: a block for each directive, one for the lines in between.
-/
def blocksOfPieces : List Piece → List Block
  | [] => []
  | p :: rest =>
    match p.role with
    | .accepted request _ => .autodoc ⟨request, p.line, []⟩ :: blocksOfPieces rest
    | .text | .rejected _ => consMarkdown p.raw (blocksOfPieces rest)

/-- The document of a source. -/
def parseChars (source : List Char) : Document × List Warning :=
  let pieces := readPieces none 1 (Text.lines source)
  (⟨blocksOfPieces pieces⟩, pieces.flatMap Piece.warnings)

/-- The document of a source, and what had to be ignored in it. -/
def parse (source : String) : Document × List Warning :=
  parseChars source.toList

end DocWeave.Page
