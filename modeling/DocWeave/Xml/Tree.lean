/-!
# XML trees

An XML document is read into a tree of elements and text leaves. Element names come from an open
vocabulary; attributes keep the order in which they were written, without namespace declarations.

- `Tree`: an element or a text leaf.
- `Element`: the parts of an element, for places where a text leaf cannot stand.
- `Element.attribute?`, `Element.elements`, `Element.textContent`: the questions asked of an element.
-/

namespace DocWeave.Xml

/-- Attributes of an element, in the order written. No name occurs twice in a tree that was read. -/
abbrev Attributes := List (String × String)

/-- A node of an XML document. -/
inductive Tree where
  /-- Character data. -/
  | text (value : String)
  /-- An element with its attributes and its children in document order. -/
  | element (name : String) (attributes : Attributes) (children : List Tree)
deriving Repr, Inhabited

/-- An element of an XML document. -/
structure Element where
  /-- Element name. -/
  name : String
  /-- Attributes without namespace declarations. -/
  attributes : Attributes := []
  /-- Children in document order. -/
  children : List Tree := []
deriving Repr, Inhabited

/-- The tree that consists of one element. -/
def Element.toTree (e : Element) : Tree :=
  .element e.name e.attributes e.children

/-- The element at the root of a tree, if it is not a text leaf. -/
def Tree.element? : Tree → Option Element
  | .text _ => none
  | .element name attributes children => some ⟨name, attributes, children⟩

/-- The value of an attribute. -/
def Element.attribute? (e : Element) (name : String) : Option String :=
  e.attributes.lookup name

/-- The children that are elements. -/
def Element.elements (e : Element) : List Element :=
  e.children.filterMap Tree.element?

mutual

/-- The text of a tree: its text leaves joined in document order. -/
def Tree.textContent : Tree → String
  | .text value => value
  | .element _ _ children => textOfList children

/-- The texts of a list of trees, joined. -/
def Tree.textOfList : List Tree → String
  | [] => ""
  | t :: ts => t.textContent ++ textOfList ts

end

/-- The text of an element: the text leaves below it joined in document order. -/
def Element.textContent (e : Element) : String :=
  Tree.textOfList e.children

end DocWeave.Xml
