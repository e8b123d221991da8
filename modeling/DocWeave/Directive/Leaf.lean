import DocWeave.Directive.Arguments

/-!
# Leaf directives

A leaf directive stands alone on a line: two colons, a name, perhaps a content in brackets, perhaps
attributes in braces. Brackets may nest, and so may braces.

- `readGroup`: what stands between a delimiter and its partner.
- `Leaf.parse`: the directive on a line.
-/

namespace DocWeave.Directive

/-- The inner text of a group whose first delimiter has been read, and what follows it. `depth`
counts the groups that are open inside it, `read` holds its characters so far, last first. -/
def readGroupFrom (opening closing : Char) (depth : Nat) (read : List Char) :
    List Char → Option (List Char × List Char)
  | [] => none
  | c :: rest =>
    if c = opening then readGroupFrom opening closing (depth + 1) (c :: read) rest
    else if c = closing then
      match depth with
      | 0 => some (read.reverse, rest)
      | d + 1 => readGroupFrom opening closing d (c :: read) rest
    else readGroupFrom opening closing depth (c :: read) rest

/-- The inner text of the group at the start of a text, and what follows it. A text that starts with
no group has an empty one; a group that is not closed is an error. -/
def readGroup (opening closing : Char) (text : List Char) : Option (List Char × List Char) :=
  match text with
  | [] => some ([], [])
  | c :: rest =>
    if c = opening then readGroupFrom opening closing 0 [] rest else some ([], c :: rest)

/-- A directive that takes a line of its own. -/
structure Leaf where
  /-- The name, such as `automodule`. -/
  name : String
  /-- The arguments. -/
  args : Arguments
deriving Repr, DecidableEq

/-- Whether a character ends the name of a directive. -/
def endsName (c : Char) : Bool :=
  c = '[' || c = '\x7b' || Text.isBlank c

/-- The directive written by a text that starts after the two colons. -/
def Leaf.parseAfterColons (text : List Char) : Option Leaf :=
  let name := text.takeWhile (!endsName ·)
  if name.isEmpty || !name.all isNameChar then none
  else
    match readGroup '[' ']' (text.dropWhile (!endsName ·)) with
    | none => none
    | some (content, rest) =>
      match readGroup '\x7b' '\x7d' rest with
      | none => none
      | some (attributes, rest) =>
        if Text.isBlankText rest then some ⟨String.ofList name, .parse content attributes⟩ else none

/-- The directive on a line, if the line holds one and nothing else but white space around it. -/
def Leaf.parse (line : List Char) : Option Leaf :=
  match Text.trim line with
  | ':' :: ':' :: rest => parseAfterColons rest
  | _ => none

end DocWeave.Directive
