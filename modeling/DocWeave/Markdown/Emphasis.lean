import DocWeave.Text.Classes

/-!
# Emphasis

Runs of `*`, `_` and `~` may open and close emphasis, depending on the characters around them. Which
runs belong together is settled from left to right: a run that can close looks for the nearest run
before it that can open.

- `Inline`: the parts of running text.
- `Run`, `Run.ofContext`: a run and what it can do.
- `Token`, `resolve`: parts and runs in order, and the parts that they make.
-/

namespace DocWeave.Markdown

/-- A part of running text. -/
inductive Inline where
  /-- A character that means itself. -/
  | char (c : Char)
  /-- Code. -/
  | code (text : List Char)
  /-- HTML that is kept as it is. -/
  | html (text : List Char)
  /-- The end of a line. -/
  | softBreak
  /-- The end of a line that is kept. -/
  | hardBreak
  | emphasis (children : List Inline)
  | strong (children : List Inline)
  | strikethrough (children : List Inline)
  /-- A link with its title. -/
  | link (destination title : List Char) (children : List Inline)
  /-- An image with its title. -/
  | image (destination title : List Char) (children : List Inline)
deriving Repr, Inhabited

/-- A run of equal delimiters. -/
structure Run where
  /-- The delimiter. -/
  mark : Char
  /-- How many of them are left. -/
  count : Nat
  /-- How many there were. -/
  size : Nat
  /-- Whether the run can open emphasis. -/
  canOpen : Bool
  /-- Whether the run can close emphasis. -/
  canClose : Bool
  /-- White space after the run that is dropped if nothing is left of it. -/
  tail : List Char := []
deriving Repr

/-- Whether a run can open emphasis, given the character before it on its line and the one after it.
No emphasis opens before white space. A run inside a word opens emphasis only if it is made of `*`,
or is `~~`. -/
def runOpens (mark : Char) (size : Nat) (before after : Option Char) : Bool :=
  match after with
  | none => false
  | some next =>
    if Text.isBlank next then false
    else
      match before with
      | none => true
      | some previous =>
        (mark = '*' && !Text.isPunctuation next) || (mark = '~' && 1 < size) ||
          (mark = '~' && previous = '~' && !Text.isPunctuation next) ||
          Text.isBlank previous || Text.isPunctuation previous

/-- Whether a run can close emphasis. -/
def runCloses (mark : Char) (size : Nat) (before after : Option Char) : Bool :=
  match before with
  | none => false
  | some previous =>
    if Text.isBlank previous then false
    else
      match after with
      | none => true
      | some next =>
        ((mark = '*' || (mark = '~' && 1 < size)) && !Text.isPunctuation previous) ||
          (mark = '~' && previous = '~') || Text.isBlank next || Text.isPunctuation next

/-- A run between two characters. -/
def Run.ofContext (mark : Char) (size : Nat) (before after : Option Char) : Run :=
  { mark := mark, count := size, size := size
    canOpen := runOpens mark size before after, canClose := runCloses mark size before after }

/-- A part of running text, or what may become one. -/
inductive Token where
  | part (p : Inline)
  /-- A run that may become emphasis. -/
  | run (r : Run)
  /-- A backslash at the end of a line, which keeps the line end. -/
  | escapedEnd
deriving Repr

/-- Whether a token is a run. -/
def Token.isRun : Token → Bool
  | run _ => true
  | _ => false

/-- A run that is open, with the parts after it, last first. -/
structure OpenRun where
  /-- The run. -/
  run : Run
  /-- The parts after it. -/
  parts : List Inline
deriving Repr

/-- Parts before all open runs, the open runs, innermost first, and how many of the outermost runs
need not be looked at for a run of tildes. -/
structure EmphasisState where
  parts : List Inline := []
  openRuns : List OpenRun := []
  tildeFloor : Nat := 0

/-- Delimiters that mean themselves. -/
def literalMarks (mark : Char) (count : Nat) : List Inline :=
  List.replicate count (.char mark)

namespace EmphasisState

/-- Adds parts, given last first. -/
def addParts (s : EmphasisState) (added : List Inline) : EmphasisState :=
  match s.openRuns with
  | [] => { s with parts := added ++ s.parts }
  | r :: outer => { s with openRuns := { r with parts := added ++ r.parts } :: outer }

end EmphasisState

/-- Whether an open run and a run that can close belong together. Runs of tildes need equal sizes;
for the others, if one of the two can both open and close, the sum of their sizes may be a multiple
of three only if both are. -/
def Run.matches (opening closing : Run) : Bool :=
  opening.mark = closing.mark && (closing.mark ≠ '~' || opening.size = closing.size) &&
    ((!(closing.canOpen && closing.canClose) && !(opening.canOpen && opening.canClose)) ||
      (closing.size + opening.size) % 3 ≠ 0 || closing.size % 3 = 0)

/-- Open runs as they were written, with the parts after them, last first. -/
def writtenRuns (runs : List OpenRun) : List Inline :=
  runs.flatMap fun r => r.parts ++ literalMarks r.run.mark r.run.count

/-- Splits the open runs at the innermost one that matches, looking at no more than `limit` of them:
the parts after the match, last first, the match, and the runs around it. -/
def findOpening (closing : Run) (limit : Nat) (openRuns : List OpenRun) :
    Option (List Inline × OpenRun × List OpenRun) := do
  let i ← (openRuns.take limit).findIdx? (·.run.matches closing)
  match openRuns.drop i with
  | [] => none
  | r :: outer => some (writtenRuns (openRuns.take i) ++ r.parts, r, outer)

/-- Wraps parts in as much emphasis as a number of delimiters on either side makes: strong emphasis
for every two of them, inside a simple one for the one that may be left. -/
def wrap (mark : Char) : Nat → List Inline → List Inline
  | 0, parts => parts
  | 1, parts => [if mark = '~' then .strikethrough parts else .emphasis parts]
  | n + 2, parts => wrap mark n [if mark = '~' then .strikethrough parts else .strong parts]

namespace EmphasisState

/-- Closes as much emphasis as a run can; gives the number of delimiters left. -/
def close (s : EmphasisState) (r : Run) (count : Nat) : Nat → EmphasisState × Nat
  | 0 => (s, count)
  | fuel + 1 =>
    if count = 0 then (s, 0)
    else
      let limit := if r.mark = '~' then s.openRuns.length - s.tildeFloor else s.openRuns.length
      match findOpening r limit s.openRuns with
      | none =>
        ((if r.mark = '~' then { s with tildeFloor := s.openRuns.length } else s), count)
      | some (inner, opening, outer) =>
        let used := min count opening.run.count
        let wrapped := wrap r.mark used inner.reverse
        let s := { s with openRuns := outer, tildeFloor := min s.tildeFloor outer.length }
        let s :=
          if used < opening.run.count then
            { s with
              openRuns :=
                ⟨{ opening.run with count := opening.run.count - used }, wrapped⟩ :: outer }
          else s.addParts wrapped
        s.close r (count - used) fuel

/-- Takes one token into account. -/
def step (s : EmphasisState) (t : Token) : EmphasisState :=
  match t with
  | .part p => s.addParts [p]
  | .escapedEnd => s.addParts [.hardBreak]
  | .run r =>
    let (s, left) := if r.canClose then s.close r r.count r.count else (s, r.count)
    if left = 0 then s
    else
      let s :=
        if r.canOpen then { s with openRuns := ⟨{ r with count := left }, []⟩ :: s.openRuns }
        else s.addParts (literalMarks r.mark left)
      s.addParts (r.tail.map .char).reverse

end EmphasisState

/-- The parts that tokens make. -/
def resolve (tokens : List Token) : List Inline :=
  let s := tokens.foldl EmphasisState.step {}
  (writtenRuns s.openRuns ++ s.parts).reverse

end DocWeave.Markdown
