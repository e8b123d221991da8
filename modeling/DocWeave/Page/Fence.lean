import DocWeave.Text.Parts

/-!
# Code fences

Directives inside a fenced block of code are examples, so the lines of a page are followed from fence
to fence. A fence is a run of at least three backticks or tildes after white space.

- `Fence`: the character and the length of a run.
- `Fence.ofLine`: the fence that a line may start with.
- `FenceState.next`: the fence that is open after a line.
-/

namespace DocWeave.Page

/-- A run of fence characters. -/
structure Fence where
  /-- A backtick or a tilde. -/
  mark : Char
  /-- The length of the run. -/
  size : Nat
deriving Repr, DecidableEq

/-- Whether fences are made of a character. -/
def isFenceMark (c : Char) : Bool :=
  c = '\x60' || c = '~'

/-- The fence at the start of a line, and what follows it. -/
def Fence.ofLine (line : List Char) : Option (Fence × List Char) :=
  match Text.trimStart line with
  | [] => none
  | c :: rest =>
    if isFenceMark c then
      let size := 1 + (rest.takeWhile (· = c)).length
      if 3 ≤ size then some (⟨c, size⟩, rest.dropWhile (· = c)) else none
    else none

/-- Whether a fence closes the block that `opening` has opened: the same character, at least as
long, nothing but white space after it. -/
def Fence.closes (opening fence : Fence) (rest : List Char) : Bool :=
  fence.mark = opening.mark && opening.size ≤ fence.size && Text.isBlankText rest

/-- The fence that is open between two lines, if any. -/
abbrev FenceState := Option Fence

/-- The fence that is open after a line. -/
def FenceState.next (state : FenceState) (line : List Char) : FenceState :=
  match state, Fence.ofLine line with
  | none, none => none
  | none, some (fence, _) => some fence
  | some opening, none => some opening
  | some opening, some (fence, rest) =>
    if opening.closes fence rest then none else some opening

/-- Whether a line belongs to a fenced block: a fence is open before it or after it. -/
def FenceState.covers (state : FenceState) (line : List Char) : Bool :=
  state.isSome || (state.next line).isSome

end DocWeave.Page
