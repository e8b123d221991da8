import DocWeave.Table
import DocWeave.Text.Alphanumeric
import DocWeave.Text.Parts

/-!
# Arguments of a directive

A directive has a content, written in brackets, and attributes, written in braces as items that white
space separates: `key="value"`, `key='value'`, `key=value` or a bare `key`. What is no item is skipped
character by character.

- `readItem`: the item at the start of a text.
- `Arguments.parse`: the arguments; of several values for a key the last one counts.
-/

namespace DocWeave.Directive

/-- The value of a bare key. -/
def flagValue : String := "true"

/-- Whether a character may stand in names of directives and keys of attributes. -/
def isNameChar (c : Char) : Bool :=
  Text.isAlphanumeric c || c = '-' || c = '_'

/-- An attribute that was read, and how many characters it took. -/
structure Item where
  /-- The key. -/
  key : List Char
  /-- The value. -/
  value : List Char
  /-- The number of characters of the item. -/
  size : Nat
deriving Repr, DecidableEq

/-- The text up to a closing quote, if there is one. -/
def upToQuote (quote : Char) : List Char → Option (List Char)
  | [] => none
  | c :: rest => if c = quote then some [] else (upToQuote quote rest).map (c :: ·)

/-- The item with a key that a text goes on with after the key. -/
def readItemAfter (key : List Char) : List Char → Option Item
  | [] => some ⟨key, flagValue.toList, key.length⟩
  | c :: rest =>
    if c = '=' then
      match rest with
      | '"' :: inner => (upToQuote '"' inner).map fun v => ⟨key, v, key.length + v.length + 3⟩
      | '\'' :: inner => (upToQuote '\'' inner).map fun v => ⟨key, v, key.length + v.length + 3⟩
      | _ =>
        let value := rest.takeWhile (!Text.isBlank ·)
        some ⟨key, value, key.length + value.length + 1⟩
    else if Text.isBlank c then some ⟨key, flagValue.toList, key.length⟩
    else none

/-- The item at the start of a text. -/
def readItem (text : List Char) : Option Item :=
  let key := text.takeWhile isNameChar
  if key.isEmpty then none else readItemAfter key (text.dropWhile isNameChar)

/-- The items of a text, the first `skip` characters of which have been read already. -/
def itemsFrom (skip : Nat) : List Char → List Item
  | [] => []
  | c :: rest =>
    match skip with
    | k + 1 => itemsFrom k rest
    | 0 =>
      match readItem (c :: rest) with
      | some item => item :: itemsFrom (item.size - 1) rest
      | none => itemsFrom 0 rest

/-- The attributes of a directive, by key. -/
abbrev Attributes := Table String

/-- The attributes written in a text. -/
def readAttributes (text : List Char) : Attributes :=
  (itemsFrom 0 text).foldl
    (fun attributes item => attributes.put (String.ofList item.key) (String.ofList item.value)) []

/-- The arguments of a directive. -/
structure Arguments where
  /-- What the brackets hold, without the white space around it. -/
  content : String := ""
  /-- What the braces hold, by key. -/
  attributes : Attributes := []
deriving Repr, DecidableEq

/-- The arguments in the texts of the brackets and of the braces. -/
def Arguments.parse (content attributes : List Char) : Arguments :=
  ⟨String.ofList (Text.trim content), readAttributes attributes⟩

/-- The value of an attribute. -/
def Arguments.get? (args : Arguments) (key : String) : Option String :=
  args.attributes.get? key

/-- The keys of the attributes, in ascending order. -/
def Arguments.keys (args : Arguments) : List String :=
  args.attributes.names

end DocWeave.Directive
