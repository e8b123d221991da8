import DocWeave.Text.Alphanumeric

/-!
# References to environment variables

A setting may refer to environment variables.

- `Environment.get?`: the value of a variable.
- `Part`, `readParts`: a text as literal characters and references.
- `expand`: the text with the values in place of the references. A text without a braced reference is
  left as it is.
-/

namespace DocWeave

/-- The environment: the names of variables with their values. -/
abbrev Environment := List (String × String)

/-- The value of a variable. An entry is written `NAME=VALUE`; of the entries that start with the
name and an equals sign the first counts. The empty name has no value. -/
def Environment.get? (env : Environment) (name : List Char) : Option (List Char) :=
  if name = [] then none
  else
    env.findSome? fun (key, value) =>
      let entry := key.toList ++ '=' :: value.toList
      if (name ++ ['=']).isPrefixOf entry then some (entry.drop (name.length + 1)) else none

namespace Settings

/-- A part of a text with references. -/
inductive Part where
  /-- A character that stands for itself. -/
  | literal (c : Char)
  /-- A reference to a variable, with the text to take if there is no such variable. -/
  | reference (name : List Char) (fallback? : Option (List Char))
deriving Repr, DecidableEq

/-- The places where a fallback starts in a reference. -/
def fallbackMark : List Char := [':', '-']

/-- A text up to a fallback, and the fallback. -/
def splitFallback : List Char → List Char × Option (List Char)
  | [] => ([], none)
  | c :: rest =>
    if fallbackMark.isPrefixOf (c :: rest) then ([], some (rest.drop 1))
    else
      let (name, fallback?) := splitFallback rest
      (c :: name, fallback?)

/-- The reference with some text in its braces. A text that starts with the mark of a fallback is a
name as a whole. -/
def bracedReference (body : List Char) : Part :=
  if fallbackMark.isPrefixOf body then .reference body none
  else
    let (name, fallback?) := splitFallback body
    .reference name fallback?

/-- Characters of a name without braces. -/
def isNameChar (c : Char) : Bool :=
  Text.isAlphanumeric c || c = '_'

/-- What a dollar sign stands for, by the text after it, and how many characters of that text belong
to it. Two dollar signs stand for one. An opening brace that is never closed stands for itself. -/
def readDollar : List Char → List Part × Nat
  | [] => ([.literal '$'], 0)
  | c :: rest =>
    if c = '\x7b' then
      if rest.contains '\x7d' then
        let body := rest.takeWhile (· ≠ '\x7d')
        ([bracedReference body], body.length + 2)
      else ([.literal '$', .literal '\x7b'], 1)
    else if c = '$' then ([.literal '$'], 1)
    else if isNameChar c then
      let name := (c :: rest).takeWhile isNameChar
      ([.reference name none], name.length)
    else ([.literal '$'], 0)

/-- The parts of a text, of which `skip` characters have been dealt with. -/
def readParts : Nat → List Char → List Part
  | _, [] => []
  | skip + 1, _ :: rest => readParts skip rest
  | 0, c :: rest =>
    if c = '$' then
      let (parts, count) := readDollar rest
      parts ++ readParts count rest
    else .literal c :: readParts 0 rest

/-- The text of parts, or the first name that has no value. A variable that is set counts even if it
is empty. -/
def fillParts (env : Environment) : List Part → Except (List Char) (List Char)
  | [] => .ok []
  | .literal c :: rest => do
    let text ← fillParts env rest
    return c :: text
  | .reference name fallback? :: rest =>
    match env.get? name, fallback? with
    | none, none => .error name
    | none, some value | some value, _ => do
      let text ← fillParts env rest
      return value ++ text

/-- Whether a text has a braced reference. -/
def hasBraces : List Char → Bool
  | '$' :: '\x7b' :: _ => true
  | _ :: rest => hasBraces rest
  | [] => false

/-- The names to which a text refers, in the order of the references. -/
def references (text : String) : List String :=
  if hasBraces text.toList then
    (readParts 0 text.toList).filterMap fun
      | .literal _ => none
      | .reference name _ => some (String.ofList name)
  else []

/-- A text with the values of variables in place of the references, or the first name without a
value. Without a braced reference the text stays as it is. -/
def expand (env : Environment) (text : String) : Except String String :=
  if hasBraces text.toList then
    match fillParts env (readParts 0 text.toList) with
    | .ok chars => .ok (String.ofList chars)
    | .error name => .error (String.ofList name)
  else .ok text

end Settings

end DocWeave
