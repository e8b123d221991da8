import DocWeave.Description.Rule
import DocWeave.Xml.Tree

/-!
# The nodes of descriptions

An XML description becomes nodes of a page by the rules for its element names.

- `UnknownElement`: the only way in which this fails.
- `Scope`: how many sections enclose an element.
- `nodeOf`: the node of a tree, if it shows at all.
- `nodesOf`: the nodes of a module's descriptions.
-/

namespace DocWeave.Description

open Xml (Attributes Element Tree)

/-- An element whose name has no rule. -/
structure UnknownElement where
  /-- The name without a rule. -/
  name : String
deriving Repr, DecidableEq

/-- The wording of the error. -/
def UnknownElement.message (e : UnknownElement) : String :=
  "unknown description node <" ++ e.name ++ ">"

/-- Puts a separator between neighbours. -/
def separate {α : Type} (items : List α) (spacer : α) : List α :=
  items.intersperse spacer

/-- The sections around an element, counted up to the largest byte. -/
structure Scope where
  /-- How many sections enclose the element. -/
  sections : UInt8 := 0
deriving Repr, DecidableEq

/-- The scope inside one more section. -/
def Scope.inSection (scope : Scope) : Scope :=
  if scope.sections = 255 then scope else ⟨scope.sections + 1⟩

/-- The depth of a title: at least one, at most six. -/
def Scope.titleDepth (scope : Scope) : UInt8 :=
  if scope.sections < 1 then 1 else if 6 < scope.sections then 6 else scope.sections

/-- The address that a reference leads to: an anchor of the page, or else a URI. -/
def address? (attributes : Attributes) : Option String :=
  match attributes.lookup "refid" with
  | some id => some ("#" ++ id)
  | none => attributes.lookup "refuri"

/-- The node that a rule makes of an element, given the nodes of its children. The rules that need
no such nodes give nothing. -/
def Rule.node? (rule : Rule) (scope : Scope) (attributes : Attributes) (children : List Node) :
    Option Node :=
  match rule with
  | .skip | .collapse => none
  | .rename kind => some (.ofKind kind children)
  | .parameterList =>
    some (.ofKind .span (.text "(" :: separate children (.text ", ") ++ [.text ")"]))
  | .fieldName => some (.ofKind .span [.ofKind .emphasis children])
  | .sectionBlock => some (.ofKind .block children)
  | .title => some (.branch (.heading scope.titleDepth) none children)
  | .rubric => some (.ofKind .paragraph [.ofKind .strong children])
  | .admonition kind => some (.branch (.admonition kind) none children)
  | .reference =>
    match address? attributes with
    | some url => some (.branch (.link url) none children)
    | none => some (.ofKind .span children)

/-- The scope of the children of an element with a rule. -/
def Rule.inner (rule : Rule) (scope : Scope) : Scope :=
  match rule with
  | .sectionBlock => scope.inSection
  | _ => scope

/-- The id that a `target` gives to the node after it. -/
def targetId : Tree → Option String
  | .text _ => none
  | .element name attributes _ => if name = "target" then attributes.lookup "refid" else none

mutual

/-- The node of a tree in a scope; `none` if the tree does not show. -/
def nodeIn (scope : Scope) : Tree → Except UnknownElement (Option Node)
  | .text value => .ok (some (.text value))
  | .element name attributes children =>
    match Rule.ofName? name with
    | none => .error ⟨name⟩
    | some .skip => .ok none
    | some .collapse => firstNodeIn scope children
    | some rule =>
      match nodesIn (rule.inner scope) none children with
      | .error e => .error e
      | .ok nodes => .ok (rule.node? scope attributes nodes)

/-- The node of the first tree of a list; an empty text if there is none. -/
def firstNodeIn (scope : Scope) : List Tree → Except UnknownElement (Option Node)
  | [] => .ok (some (.text ""))
  | t :: _ => nodeIn scope t

/-- The nodes of a list of trees. A pending anchor becomes the id of the next node that is no text,
and a later target replaces it. -/
def nodesIn (scope : Scope) (anchor : Option String) :
    List Tree → Except UnknownElement (List Node)
  | [] => .ok []
  | t :: ts =>
    let anchor := (targetId t).or anchor
    match nodeIn scope t with
    | .error e => .error e
    | .ok none => nodesIn scope anchor ts
    | .ok (some node) =>
      match anchor with
      | some id =>
        if node.isText then (nodesIn scope (some id) ts).map (node :: ·)
        else (nodesIn scope none ts).map (node.setId id :: ·)
      | none => (nodesIn scope none ts).map (node :: ·)

end

/-- The node of a tree; `none` if the tree does not show. -/
def nodeOf (t : Tree) : Except UnknownElement (Option Node) :=
  nodeIn {} t

/-- The nodes of a list of elements, in order, without those that do not show. -/
def nodesOf : List Element → Except UnknownElement (List Node)
  | [] => .ok []
  | e :: es =>
    match nodeOf e.toTree with
    | .error error => .error error
    | .ok node => (nodesOf es).map (node.toList ++ ·)

end DocWeave.Description
