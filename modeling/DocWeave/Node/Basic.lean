/-!
# Document nodes

What a page shows of an XML description is a tree of document nodes: text leaves, and nodes that have
a label, perhaps an anchor id, and children.

- `Kind`: labels that say nothing but what sort of node it is.
- `Admonition`: the sorts of boxes that set a remark apart.
- `Label`: all labels, among them headings, admonitions and links.
- `Node`, `Node.plainText`, `Node.setId`.
-/

namespace DocWeave

/-- Sorts of nodes that carry no data of their own. -/
inductive Kind where
  | block
  | paragraph
  | span
  | strong
  | emphasis
  | inlineCode
  | code
  | list
  | listItem
deriving Repr, DecidableEq

/-- Sorts of admonitions. -/
inductive Admonition where
  | attention
  | caution
  | danger
  | error
  | hint
  | important
  | note
  | tip
  | warning
deriving Repr, DecidableEq

/-- The name of an admonition, which is also the name of its element in a description. -/
def Admonition.name : Admonition → String
  | .attention => "attention"
  | .caution => "caution"
  | .danger => "danger"
  | .error => "error"
  | .hint => "hint"
  | .important => "important"
  | .note => "note"
  | .tip => "tip"
  | .warning => "warning"

/-- What a node with children is. -/
inductive Label where
  /-- A node without data of its own. -/
  | plain (kind : Kind)
  /-- A title; depth one is the title of an outermost section. -/
  | heading (depth : UInt8)
  /-- A box with a remark. -/
  | admonition (kind : Admonition)
  /-- A link to an address. -/
  | link (url : String)
deriving Repr, DecidableEq

/-- A node of a page. -/
inductive Node where
  /-- A text leaf. It has no anchor. -/
  | text (value : String)
  /-- A node with a label, perhaps an anchor id, and its children. -/
  | branch (label : Label) (id : Option String) (children : List Node)
deriving Repr, Inhabited

namespace Node

/-- A node of some kind without an anchor. -/
def ofKind (kind : Kind) (children : List Node) : Node :=
  .branch (.plain kind) none children

/-- The anchor id of a node. -/
def id? : Node → Option String
  | .text _ => none
  | .branch _ id _ => id

/-- The label of a node that is not a text leaf. -/
def label? : Node → Option Label
  | .text _ => none
  | .branch label _ _ => some label

/-- The children of a node; a text leaf has none. -/
def children : Node → List Node
  | .text _ => []
  | .branch _ _ children => children

/-- Whether a node is a text leaf. -/
def isText : Node → Bool
  | .text _ => true
  | .branch _ _ _ => false

/-- Sets the anchor id. A text leaf stays without one. -/
def setId (node : Node) (id : String) : Node :=
  match node with
  | .text value => .text value
  | .branch label _ children => .branch label (some id) children

@[simp]
theorem isText_setId (node : Node) (id : String) : (node.setId id).isText = node.isText := by
  cases node <;> rfl

@[simp]
theorem children_setId (node : Node) (id : String) : (node.setId id).children = node.children := by
  cases node <;> rfl

mutual

/-- The text of a node: its text leaves joined in document order. -/
def plainText : Node → String
  | .text value => value
  | .branch _ _ children => textOfList children

/-- The texts of a list of nodes, joined. -/
def textOfList : List Node → String
  | [] => ""
  | n :: ns => n.plainText ++ textOfList ns

end

end Node

end DocWeave
