import DocWeave.Text.Classes

/-!
# Parts of texts

Texts are read in parts: without the blanks around them, word by word, line by line, or piece by piece
between separators.

- `trimStart`, `trimEnd`, `trim`: a text without the blanks at its ends.
- `words`: the maximal runs of characters that are not blank.
- `lines`: the lines of a text, each with the line feed that ends it; `dropLineEnd`: a line without it.
- `split`: the pieces of a text between the places where some character stands.
- `occurs`, `occurrences`: whether a text occurs in another one, and at how many places.
-/

namespace DocWeave.Text

/-! ## Trimming and words -/

/-- Drops the blanks at the start. -/
def trimStart (s : List Char) : List Char :=
  s.dropWhile isBlank

/-- Drops the blanks at the end. -/
def trimEnd (s : List Char) : List Char :=
  (s.reverse.dropWhile isBlank).reverse

/-- Drops the blanks at both ends. -/
def trim (s : List Char) : List Char :=
  trimEnd (trimStart s)

/-- The words of a text: its maximal runs of characters that are not blank, in order. -/
def words (s : List Char) : List (List Char) :=
  go [] s
where
  /-- Collects the word whose characters so far are `word`, last first. -/
  go (word : List Char) : List Char → List (List Char)
    | [] => if word.isEmpty then [] else [word.reverse]
    | c :: rest =>
      if isBlank c then
        if word.isEmpty then go [] rest else word.reverse :: go [] rest
      else go (c :: word) rest

/-! ## Lines -/

/-- Puts a character in front of the first line. -/
def consLine (c : Char) : List (List Char) → List (List Char)
  | [] => [[c]]
  | line :: rest => (c :: line) :: rest

/-- The lines of a text. Each ends with its line feed, except perhaps the last; none is empty. -/
def lines : List Char → List (List Char)
  | [] => []
  | c :: rest => if c = '\n' then [c] :: lines rest else consLine c (lines rest)

/-- A line without the line feeds and carriage returns at its end. -/
def dropLineEnd (line : List Char) : List Char :=
  (line.reverse.dropWhile fun c => c = '\n' || c = '\r').reverse

@[simp]
theorem flatten_consLine (c : Char) (ls : List (List Char)) :
    (consLine c ls).flatten = c :: ls.flatten := by
  cases ls <;> rfl

/-- No character is lost: the lines joined are the text. -/
@[simp]
theorem flatten_lines (s : List Char) : (lines s).flatten = s := by
  induction s with
  | nil => rfl
  | cons c rest ih =>
    unfold lines
    split <;> simp [ih]

/-! ## Pieces between separators -/

/-- The pieces of a text between the places where `sep` stands. They may be empty; there is one more
piece than separators. -/
def split (sep : Char) : List Char → List (List Char)
  | [] => [[]]
  | c :: rest =>
    if c = sep then [] :: split sep rest
    else
      match split sep rest with
      | [] => [[c]]
      | piece :: more => (c :: piece) :: more

theorem split_ne_nil (sep : Char) (s : List Char) : split sep s ≠ [] := by
  cases s with
  | nil => simp [split]
  | cons c rest =>
    unfold split
    split
    · simp
    · split <;> simp

/-! ## Searching -/

/-- Whether `part` occurs in a text. -/
def occurs (part : List Char) : List Char → Bool
  | [] => part.isEmpty
  | c :: rest => part.isPrefixOf (c :: rest) || occurs part rest

/-- The number of places in a text at which `part` occurs. -/
def occurrences (part : List Char) : List Char → Nat
  | [] => if part.isEmpty then 1 else 0
  | c :: rest => (if part.isPrefixOf (c :: rest) then 1 else 0) + occurrences part rest

end DocWeave.Text
