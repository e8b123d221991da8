import DocWeave.Table
import DocWeave.Text.Parts
import DocWeave.Xml.Tree

/-!
# Descriptions by module

Sphinx describes every documented object in a `desc` element. The outermost ones below the root of its
output are sorted into one bucket per module, by the module that their `ids` attribute names.

- `moduleOf?`: the module of a description.
- `descriptions`: the outermost descriptions below an element.
- `ModuleIndex`: the buckets, in order of module names.
-/

namespace DocWeave.Description

open Xml (Element Tree)

/-- What stands before the module name in an id of a module. -/
def modulePrefix : List Char :=
  "module-".toList

/-- The module that an id names. -/
def moduleOfId (id : List Char) : Option String :=
  if modulePrefix.isPrefixOf id then some (String.ofList (id.drop modulePrefix.length)) else none

/-- The module of a description: the first of its ids that names one. -/
def moduleOf? (e : Element) : Option String :=
  match e.attribute? "ids" with
  | none => none
  | some ids => (Text.words ids.toList).findSome? moduleOfId

/-- The name of description elements. -/
def descriptionName : String := "desc"

mutual

/-- The outermost descriptions of a tree. -/
def descriptionsIn : Tree → List Element
  | .text _ => []
  | .element name attributes children =>
    if name = descriptionName then [⟨name, attributes, children⟩] else descriptionsInList children

/-- The outermost descriptions of a list of trees, in document order. -/
def descriptionsInList : List Tree → List Element
  | [] => []
  | t :: ts => descriptionsIn t ++ descriptionsInList ts

end

/-- The outermost descriptions below an element, in document order. A description inside another one
belongs to it and is not listed. -/
def descriptions (root : Element) : List Element :=
  descriptionsInList root.children

/-- Descriptions sorted by module. -/
structure ModuleIndex where
  /-- The descriptions of each module, in the order met. -/
  buckets : Table (List Element) := []
  /-- How many descriptions name no module. -/
  dropped : Nat := 0
deriving Repr

namespace ModuleIndex

/-- Sorts in one more description. -/
def add (index : ModuleIndex) (e : Element) : ModuleIndex :=
  match moduleOf? e with
  | some name => { index with buckets := index.buckets.update name fun bucket => bucket.getD [] ++ [e] }
  | none => { index with dropped := index.dropped + 1 }

/-- Sorts descriptions by module. -/
def ofList (elements : List Element) : ModuleIndex :=
  elements.foldl add {}

/-- The descriptions of a module, in the order met. -/
def get? (index : ModuleIndex) (name : String) : Option (List Element) :=
  index.buckets.get? name

/-- Whether a module has a description. -/
def contains (index : ModuleIndex) (name : String) : Bool :=
  (index.get? name).isSome

/-- The modules that have a description, in ascending order. -/
def modules (index : ModuleIndex) : List String :=
  index.buckets.names

/-- The number of modules that have a description. -/
def size (index : ModuleIndex) : Nat :=
  index.buckets.length

end ModuleIndex

end DocWeave.Description
