import DocWeave.Description.Nodes

/-!
# What a tree is made of

Making nodes of a tree looks at one element at a time: it is skipped, it stands for its first child, or
it becomes a node around those of its children. The children are gone through in order, with the anchor
that is pending.

- `Tree.induction`: a property of all trees that elements inherit from their children.
- `nodeIn_of_collapse`, `nodeIn_of_wraps`, `nodeIn_element`: what is made of an element.
- `node?_eq_some`: the node that a rule puts around others.
- `id?_nodeIn`: the node of a tree has no id of its own.
- `showsNode`, `anchorAfter`: the children that take a pending anchor, and what is pending after one.
- `nodesIn_cons`: what is made of one more child.
-/

namespace DocWeave

namespace Xml

/-- A property of all texts that every element inherits from its children holds for all trees. -/
@[elab_as_elim]
theorem Tree.induction {motive : Tree → Prop} (text : ∀ value, motive (.text value))
    (element : ∀ name attributes children, (∀ t ∈ children, motive t) →
      motive (.element name attributes children)) (t : Tree) : motive t :=
  @Tree.rec motive (fun ts => ∀ t ∈ ts, motive t) text element
    (fun _ ht => nomatch ht)
    (fun _ _ hfirst hrest t ht => by
      rcases List.mem_cons.mp ht with rfl | ht
      · exact hfirst
      · exact hrest t ht)
    t

end Xml

namespace Node

/-- A node with an anchor id, if there is one for it. -/
def withId (n : Node) (anchor : Option String) : Node :=
  match anchor with
  | some id => n.setId id
  | none => n

@[simp]
theorem isText_withId (n : Node) (anchor : Option String) : (n.withId anchor).isText = n.isText := by
  cases anchor <;> simp [withId]

@[simp]
theorem children_withId (n : Node) (anchor : Option String) :
    (n.withId anchor).children = n.children := by
  cases anchor <;> simp [withId]

theorem withId_of_isText {n : Node} (h : n.isText = true) (anchor : Option String) :
    n.withId anchor = n := by
  cases n with
  | text value => cases anchor <;> rfl
  | branch label id children => cases h

/-- A node that had no id has the given one, unless it is a text. -/
theorem id?_withId {n : Node} (h : n.id? = none) {anchor : Option String} {id : String} :
    (n.withId anchor).id? = some id ↔ n.isText = false ∧ anchor = some id := by
  cases n with
  | text value =>
    rw [withId_of_isText rfl]
    exact ⟨nofun, nofun⟩
  | branch label own children =>
    cases anchor with
    | none =>
      show own = some id ↔ _
      rw [show own = none from h]
      exact ⟨nofun, nofun⟩
    | some given => exact ⟨fun hid => ⟨rfl, hid⟩, fun hid => hid.2⟩

/-- Its id tells what it was given. -/
theorem withId_id? {n : Node} (h : n.id? = none) (anchor : Option String) :
    n.withId (n.withId anchor).id? = n.withId anchor := by
  cases n with
  | text value => rw [withId_of_isText rfl, withId_of_isText rfl]
  | branch label own children =>
    cases anchor with
    | none =>
      show (branch label own children).withId own = _
      rw [show own = none from h]
    | some id => rfl

end Node

namespace Description

open Xml (Attributes Tree)

theorem exists_of_map_eq_ok {α β : Type} {f : α → β} {r : Except UnknownElement α} {b : β}
    (h : r.map f = .ok b) : ∃ a, r = .ok a ∧ b = f a := by
  cases r with
  | error _ => cases h
  | ok a => exact ⟨a, rfl, (Except.ok.inj h).symm⟩

/-! ## Elements -/

/-- Whether a rule makes a node of an element, around the nodes of all its children. -/
def Rule.wraps : Rule → Bool
  | .skip | .collapse => false
  | _ => true

/-- A rule that wraps always makes a node. -/
theorem Rule.exists_node? {rule : Rule} (h : rule.wraps = true) (scope : Scope)
    (attributes : Attributes) (nodes : List Node) :
    ∃ n, rule.node? scope attributes nodes = some n := by
  cases rule with
  | skip | collapse => cases h
  | reference =>
    unfold Rule.node?
    dsimp only
    split <;> exact ⟨_, rfl⟩
  | _ => exact ⟨_, rfl⟩

/-- An element that is collapsed stands for its first child. -/
theorem nodeIn_of_collapse {name : String} (hrule : Rule.ofName? name = some .collapse) (scope : Scope)
    (attributes : Attributes) (children : List Tree) :
    nodeIn scope (.element name attributes children) = firstNodeIn scope children := by
  rw [nodeIn, hrule]

/-- An element whose rule makes a node becomes that node, if its children do not fail. -/
theorem nodeIn_of_wraps {scope : Scope} {name : String} {attributes : Attributes}
    {children : List Tree} {rule : Rule} (hrule : Rule.ofName? name = some rule)
    (hwraps : rule.wraps = true) {node? : Option Node}
    (h : nodeIn scope (.element name attributes children) = .ok node?) :
    ∃ nodes n, nodesIn (rule.inner scope) none children = .ok nodes ∧
      rule.node? scope attributes nodes = some n ∧ node? = some n := by
  have hbind : nodeIn scope (.element name attributes children) =
      (nodesIn (rule.inner scope) none children).map (rule.node? scope attributes) := by
    rw [nodeIn, hrule]
    -- The two rules that pass over children are excluded, the others are handled alike.
    cases rule <;> first
      | contradiction
      | (dsimp only
         cases nodesIn (Rule.inner _ scope) none children <;> rfl)
  rw [hbind] at h
  obtain ⟨nodes, hnodes, rfl⟩ := exists_of_map_eq_ok h
  obtain ⟨n, hn⟩ := Rule.exists_node? hwraps scope attributes nodes
  exact ⟨nodes, n, hnodes, hn, hn⟩

/-- The node of the first tree is an empty text if there is no tree. -/
theorem firstNodeIn_eq_ok {scope : Scope} {ts : List Tree} {node? : Option Node}
    (h : firstNodeIn scope ts = .ok node?) : ts = [] ∧ node? = some (.text "") ∨
      ∃ first rest, ts = first :: rest ∧ nodeIn scope first = .ok node? := by
  cases ts with
  | nil =>
    rw [firstNodeIn] at h
    exact Or.inl ⟨rfl, (Except.ok.inj h).symm⟩
  | cons first rest =>
    rw [firstNodeIn] at h
    exact Or.inr ⟨first, rest, rfl, h⟩

/-- What is made of an element that does not fail. -/
theorem nodeIn_element {scope : Scope} {name : String} {attributes : Attributes}
    {children : List Tree} {node? : Option Node}
    (h : nodeIn scope (.element name attributes children) = .ok node?) :
    Rule.ofName? name = some .skip ∧ node? = none ∨
      Rule.ofName? name = some .collapse ∧ firstNodeIn scope children = .ok node? ∨
      ∃ rule nodes n, Rule.ofName? name = some rule ∧ rule.wraps = true ∧
        nodesIn (rule.inner scope) none children = .ok nodes ∧
        rule.node? scope attributes nodes = some n ∧ node? = some n := by
  cases hrule : Rule.ofName? name with
  | none =>
    rw [nodeIn, hrule] at h
    cases h
  | some rule =>
    cases hwraps : rule.wraps with
    | true =>
      obtain ⟨nodes, n, hn⟩ := nodeIn_of_wraps hrule hwraps h
      exact Or.inr (Or.inr ⟨rule, nodes, n, rfl, hwraps, hn⟩)
    | false =>
      cases rule with
      | skip =>
        rw [nodeIn, hrule] at h
        exact Or.inl ⟨rfl, (Except.ok.inj h).symm⟩
      | collapse =>
        rw [nodeIn_of_collapse hrule] at h
        exact Or.inr (Or.inl ⟨rfl, h⟩)
      | _ => cases hwraps

/-- A node that a rule makes is no text and has no id. The nodes that it is put around are its children,
or the children of its only child, which has no id either, or they stand between texts. -/
theorem node?_eq_some {rule : Rule} {scope : Scope} {attributes : Attributes} {nodes : List Node}
    {n : Node} (h : rule.node? scope attributes nodes = some n) :
    n.isText = false ∧ n.id? = none ∧
      (n.children = nodes ∨ (∃ m, n.children = [m] ∧ m.id? = none ∧ m.children = nodes) ∨
        n.children = .text "(" :: separate nodes (.text ", ") ++ [.text ")"]) := by
  cases rule with
  | skip | collapse => cases h
  | rename | sectionBlock | title | admonition =>
    obtain rfl := Option.some.inj h
    exact ⟨rfl, rfl, Or.inl rfl⟩
  | fieldName | rubric =>
    obtain rfl := Option.some.inj h
    exact ⟨rfl, rfl, Or.inr (Or.inl ⟨_, rfl, rfl, rfl⟩)⟩
  | parameterList =>
    obtain rfl := Option.some.inj h
    exact ⟨rfl, rfl, Or.inr (Or.inr rfl)⟩
  | reference =>
    unfold Rule.node? at h
    dsimp only at h
    split at h <;> obtain rfl := Option.some.inj h <;> exact ⟨rfl, rfl, Or.inl rfl⟩

/-- The node of a tree never has an id of its own. -/
theorem id?_nodeIn {t : Tree} : ∀ {scope : Scope} {n : Node}, nodeIn scope t = .ok (some n) →
    n.id? = none := by
  induction t using Tree.induction with
  | text value =>
    intro scope n h
    unfold nodeIn at h
    obtain rfl := Option.some.inj (Except.ok.inj h)
    rfl
  | element name attributes children ih =>
    intro scope n h
    rcases nodeIn_element h with ⟨-, hn⟩ | ⟨-, hfirst⟩ | ⟨rule, nodes, n', -, -, -, hn', hn⟩
    · cases hn
    · rcases firstNodeIn_eq_ok hfirst with ⟨-, hn⟩ | ⟨first, rest, rfl, hnode⟩
      · obtain rfl := Option.some.inj hn
        rfl
      · exact ih first List.mem_cons_self hnode
    · obtain rfl := Option.some.inj hn
      exact (node?_eq_some hn').2.1

/-! ## Children -/

/-- A target with an id shows nothing itself. -/
theorem nodeIn_of_targetId {t : Tree} {id : String} (h : targetId t = some id) (scope : Scope) :
    nodeIn scope t = .ok none := by
  cases t with
  | text value => cases h
  | element name attributes children =>
    simp only [targetId] at h
    split at h
    · rename_i hname
      -- Targets are skipped as elements; only their ids are used.
      have hrule : Rule.ofName? name = some .skip := by
        rw [hname]
        rfl
      unfold nodeIn
      rw [hrule]
    · cases h

/-- Whether a tree becomes a node that can have an anchor. -/
def showsNode (scope : Scope) (t : Tree) : Bool :=
  match nodeIn scope t with
  | .ok (some n) => !n.isText
  | _ => false

/-- Texts and skipped elements show no node. -/
theorem showsNode_of_nodeIn {scope : Scope} {t : Tree} {node? : Option Node}
    (h : nodeIn scope t = .ok node?) : showsNode scope t = node?.any (!·.isText) := by
  unfold showsNode
  rw [h]
  cases node? <;> rfl

/-- A tree shows a node if one is made of it that is no text. -/
theorem showsNode_eq_true {scope : Scope} {t : Tree} :
    showsNode scope t = true ↔ ∃ n, nodeIn scope t = .ok (some n) ∧ n.isText = false := by
  unfold showsNode
  split
  · rename_i n hn
    rw [Bool.not_eq_true', hn]
    exact ⟨fun h => ⟨n, rfl, h⟩, fun ⟨_, hsome, h⟩ => Option.some.inj (Except.ok.inj hsome) ▸ h⟩
  · rename_i hnone
    exact ⟨nofun, fun ⟨n, hn, _⟩ => absurd hn (hnone n)⟩

/-- The anchor that is pending after a child. -/
def anchorAfter (scope : Scope) (anchor : Option String) (t : Tree) : Option String :=
  if showsNode scope t then none else (targetId t).or anchor

/-- A target does not show, so a child that does leaves the pending anchor alone. -/
theorem targetId_of_nodeIn {scope : Scope} {t : Tree} {n : Node}
    (h : nodeIn scope t = .ok (some n)) : targetId t = none := by
  cases htarget : targetId t with
  | none => rfl
  | some id =>
    rw [nodeIn_of_targetId htarget] at h
    cases h

/-- A child that shows takes the pending anchor, unless it is a text. -/
theorem nodesIn_of_nodeIn {scope : Scope} {t : Tree} {n : Node} (h : nodeIn scope t = .ok (some n))
    (anchor : Option String) (ts : List Tree) :
    nodesIn scope anchor (t :: ts) =
      (nodesIn scope (if n.isText then anchor else none) ts).map (n.withId anchor :: ·) := by
  rw [nodesIn, targetId_of_nodeIn h, h, Option.none_or]
  cases anchor with
  | none =>
    rw [ite_self]
    rfl
  | some id =>
    dsimp only
    cases htext : n.isText with
    | true => rw [if_pos rfl, if_pos rfl, Node.withId_of_isText htext]
    | false => rfl

/-- The first child becomes a node with the pending anchor, if it shows at all, and the others go on with
the anchor that is pending after it. -/
theorem nodesIn_cons {scope : Scope} {anchor : Option String} {t : Tree} {ts : List Tree}
    {nodes : List Node} (h : nodesIn scope anchor (t :: ts) = .ok nodes) :
    ∃ own rest, nodeIn scope t = .ok own ∧ nodesIn scope (anchorAfter scope anchor t) ts = .ok rest ∧
      nodes = (own.map (·.withId anchor)).toList ++ rest := by
  cases hown : nodeIn scope t with
  | error e =>
    unfold nodesIn at h
    dsimp only at h
    rw [hown] at h
    cases h
  | ok own =>
    -- The pending anchor is used up by a node that is no text.
    have hafter : anchorAfter scope anchor t =
        if own.any (!·.isText) then none else (targetId t).or anchor := by
      rw [anchorAfter, showsNode_of_nodeIn hown]
    rw [hafter]
    cases own with
    | none =>
      unfold nodesIn at h
      dsimp only at h
      rw [hown] at h
      exact ⟨none, nodes, rfl, h, rfl⟩
    | some n =>
      rw [nodesIn_of_nodeIn hown] at h
      obtain ⟨rest, hrest, rfl⟩ := exists_of_map_eq_ok h
      refine ⟨some n, rest, rfl, ?_, rfl⟩
      rw [targetId_of_nodeIn hown, Option.none_or, Option.any_some]
      cases htext : n.isText with
      | true =>
        rw [htext] at hrest
        exact hrest
      | false =>
        rw [htext] at hrest
        exact hrest

end Description

end DocWeave
