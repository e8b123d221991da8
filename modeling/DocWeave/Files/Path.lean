import DocWeave.Text.Parts

/-!
# Paths

A path is kept as it was written. Joining is textual; nothing is normalized.

- `Path.join`, `Path.parent?`, `Path.stem?`: paths from paths.
- `Path.key`: what two spellings of one path have in common: repeated slashes and inner dots do not
  count.
- `Path.steps`: the names to follow from the root or the current directory.
-/

namespace DocWeave

/-- A path as it is written. -/
structure Path where
  /-- The written path. -/
  text : String
deriving Repr, DecidableEq

namespace Path

/-- Whether a piece names something: it is neither empty nor a single dot. -/
def isName (piece : List Char) : Bool :=
  piece ≠ [] && piece ≠ ['.']

/-- Splits off what stands before the names: the slash of the root, or a dot that is written first.
-/
def splitAnchor : List Char → List Char × List Char
  | '/' :: rest => (['/'], rest)
  | ['.'] => (['.'], [])
  | '.' :: '/' :: rest => (['.'], '/' :: rest)
  | s => ([], s)

/-- Whether a path starts at the root. -/
def isAbsolute (p : Path) : Bool :=
  p.text.toList.head? = some '/'

/-- A path below another one. An absolute path stays as it is. -/
def join (base p : Path) : Path :=
  if p.isAbsolute then p
  else if base.text.toList.getLast?.all (· = '/') then ⟨base.text ++ p.text⟩
  else ⟨base.text ++ "/" ++ p.text⟩

/-- The path of an entry of a directory. -/
def child (base : Path) (name : String) : Path :=
  base.join ⟨name⟩

/-- The pieces after the anchor, from the last name backwards. -/
def piecesBackwards (p : Path) : List (List Char) :=
  (Text.split '/' (splitAnchor p.text.toList).2).reverse.dropWhile (!isName ·)

/-- The path without its last name; none for the root and for the empty path. -/
def parent? (p : Path) : Option Path :=
  let anchor := (splitAnchor p.text.toList).1
  match p.piecesBackwards with
  | _ :: rest =>
    let kept := (rest.dropWhile (!isName ·)).reverse
    some ⟨String.ofList (anchor ++ ['/'].intercalate kept)⟩
  | [] => if anchor = ['.'] then some ⟨""⟩ else none

/-- The path, its parent, and so on. -/
def ancestors (p : Path) : List Path :=
  go p.text.length p
where
  /-- At most `fuel` parents. -/
  go : Nat → Path → List Path
    | 0, p => [p]
    | fuel + 1, p =>
      match p.parent? with
      | some q => p :: go fuel q
      | none => [p]

/-- The last name of a path, unless it is the one for the parent directory. -/
def name? (p : Path) : Option String :=
  match p.piecesBackwards with
  | [] => none
  | piece :: _ => if piece = ['.', '.'] then none else some (String.ofList piece)

/-- A name up to its last dot; a name without a dot after its first character is taken whole. -/
def stem (name : List Char) : List Char :=
  match name.reverse.dropWhile (· ≠ '.') with
  | _ :: before => if before = [] then name else before.reverse
  | [] => name

/-- The last name of a path up to its last dot. -/
def stem? (p : Path) : Option String :=
  p.name?.map fun name => String.ofList (stem name.toList)

/-- The anchor and the names of a path. Paths with equal keys lead to the same place. -/
def key (p : Path) : List Char × List (List Char) :=
  let (anchor, rest) := splitAnchor p.text.toList
  (anchor, (Text.split '/' rest).filter isName)

/-- The names to follow, with single dots. -/
def stepsToCreate (p : Path) : List String :=
  ((Text.split '/' p.text.toList).filter (· ≠ [])).map String.ofList

/-- The names to follow. A slash at the end asks for a directory, as a single dot after it would. -/
def steps (p : Path) : List String :=
  if p.stepsToCreate ≠ [] && p.text.toList.getLast? = some '/' then p.stepsToCreate ++ ["."]
  else p.stepsToCreate

end Path

end DocWeave
