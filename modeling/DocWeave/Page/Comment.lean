import DocWeave.Page.Html
import DocWeave.Text.Classes

/-!
# Comments on a page

Every comment in HTML that looks like one for a place is taken up, whoever wrote it: `<!--autodoc-`,
a tag, a colon, a number and `-->`. It is replaced by a section if the tag is the one of the document and
there is a section with the number. Otherwise it is put back as it was.

- `Comment`: a comment that looks like one for a place.
- `readComment`: the comment at the start of a text.
- `Comment.replacement`: what is put in its place.
- `replaceComments`: the HTML with all comments replaced. `fillPlaceholders` gives the same without
  a look at the comments with other tags.
-/

namespace DocWeave.Page

/-- Whether a character is a digit of a tag. -/
def isTagDigit (c : Char) : Bool :=
  c.isDigit || ('a' ≤ c && c ≤ 'f')

/-- A comment that looks like one for a place. -/
structure Comment where
  /-- The tag, in hexadecimal digits. -/
  tag : List Char
  /-- The number, in digits of any script. -/
  number : List Char
  tag_ne_nil : tag ≠ []
  isTagDigit_of_mem : ∀ c ∈ tag, isTagDigit c
  number_ne_nil : number ≠ []
  isDecimal_of_mem : ∀ c ∈ number, Text.isDecimal c

namespace Comment

/-- The comment as it is written. -/
def text (comment : Comment) : List Char :=
  placeholderPrefix comment.tag ++ comment.number ++ "-->".toList

/-- The comment with a tag and a number. -/
def ofParts? (tag number : List Char) : Option Comment :=
  if htag : tag ≠ [] ∧ tag.all isTagDigit then
    if hnumber : number ≠ [] ∧ number.all Text.isDecimal then
      some ⟨tag, number, htag.1, List.all_eq_true.mp htag.2, hnumber.1, List.all_eq_true.mp hnumber.2⟩
    else none
  else none

/-- The number as a value. Only ASCII digits have one. There is no bound: a number that is too large for a
machine word is also too large for a list of sections. -/
def number? (comment : Comment) : Option Nat :=
  if comment.number.all Char.isDigit then
    some (comment.number.foldl (fun n c => n * 10 + (c.toNat - '0'.toNat)) 0)
  else none

/-- The section that a comment stands for. -/
def section? (tag : List Char) (sections : List (List Char)) (comment : Comment) :
    Option (List Char) :=
  if comment.tag = tag then comment.number?.bind (sections[·]?) else none

/-- What is put in the place of a comment: the section it stands for, or the comment itself. -/
def replacement (tag : List Char) (sections : List (List Char)) (comment : Comment) : List Char :=
  (comment.section? tag sections).getD comment.text

end Comment

/-- The comment at the start of a text. Neither a tag nor a number can go on with what is behind it,
so the longest runs of their digits are the only ones to try. -/
def readComment (text : List Char) : Option Comment :=
  let rest := text.drop placeholderStart.length
  let tag := rest.takeWhile isTagDigit
  let number := (rest.drop (tag.length + 1)).takeWhile Text.isDecimal
  (Comment.ofParts? tag number).filter fun comment => comment.text.isPrefixOf text

/-- Replaces the comments in HTML, the first `skip` characters of which have been read already. -/
def replaceFrom (tag : List Char) (sections : List (List Char)) (skip : Nat) : List Char → List Char
  | [] => []
  | c :: rest =>
    match skip with
    | k + 1 => replaceFrom tag sections k rest
    | 0 =>
      match readComment (c :: rest) with
      | some comment =>
        comment.replacement tag sections ++ replaceFrom tag sections (comment.text.length - 1) rest
      | none => c :: replaceFrom tag sections 0 rest

/-- Replaces the comments in HTML, in one pass. -/
def replaceComments (tag : List Char) (sections : List (List Char)) (html : List Char) : List Char :=
  replaceFrom tag sections 0 html

end DocWeave.Page
