import DocWeave.Proofs.Description.Translation

/-!
# The text of a description

Whatever nodes, headings, links and anchors are put around it, the text of a description stays: what the
node of a tree says can be read off the tree.

- `shows`: whether a tree becomes a node, said of the tree alone.
- `visibleText`: the text of a tree without what is skipped or passed over, and with the brackets and the
  commas of its parameter lists.
- `KeepsAll`: trees in which nothing is skipped, passed over or added.
- `plainText_nodeOf`: the node of a tree has its visible text.
-/

namespace DocWeave

namespace Node

@[simp]
theorem plainText_withId (n : Node) (anchor : Option String) :
    (n.withId anchor).plainText = n.plainText := by
  cases anchor with
  | none => rfl
  | some id => cases n <;> rfl

theorem textOfList_eq_join (ns : List Node) : textOfList ns = String.join (ns.map plainText) := by
  induction ns with
  | nil => rfl
  | cons n ns ih => rw [textOfList, ih, List.map_cons, String.join_cons]

end Node

namespace Description

open Xml (Attributes Tree)

/-! ## The text that shows -/

mutual

/-- Whether a tree becomes a node: a skipped element does not, a collapsed one does if its first child
does or if it has none. -/
def shows : Tree → Bool
  | .text _ => true
  | .element name _ children =>
    match Rule.ofName? name with
    | some .skip => false
    | some .collapse => firstShows children
    | _ => true

/-- Whether the first of some trees becomes a node, if there is one. -/
def firstShows : List Tree → Bool
  | [] => true
  | t :: _ => shows t

end

mutual

/-- The text of a tree that can be seen. -/
def visibleText : Tree → String
  | .text value => value
  | .element name _ children =>
    match Rule.ofName? name with
    | some .skip => ""
    | some .collapse => (visibleTexts children).headD ""
    | some .parameterList => "(" ++ ", ".intercalate (shownTexts children) ++ ")"
    | _ => String.join (visibleTexts children)

/-- The visible texts of some trees. -/
def visibleTexts : List Tree → List String
  | [] => []
  | t :: ts => visibleText t :: visibleTexts ts

/-- The visible texts of those of some trees that become nodes. -/
def shownTexts : List Tree → List String
  | [] => []
  | t :: ts => if shows t then visibleText t :: shownTexts ts else shownTexts ts

end

/-- No element of a tree is skipped or collapsed, and none is a parameter list. -/
inductive KeepsAll : Tree → Prop where
  | text (value : String) : KeepsAll (.text value)
  | element {name : String} {attributes : Attributes} {children : List Tree}
      (hskip : Rule.ofName? name ≠ some .skip) (hcollapse : Rule.ofName? name ≠ some .collapse)
      (hparameters : Rule.ofName? name ≠ some .parameterList)
      (hchildren : ∀ t ∈ children, KeepsAll t) : KeepsAll (.element name attributes children)

/-- What does not show has no visible text. -/
theorem visibleText_of_not_shows {t : Tree} : shows t = false → visibleText t = "" := by
  induction t using Tree.induction with
  | text value => exact nofun
  | element name attributes children ih =>
    intro h
    unfold shows at h
    unfold visibleText
    split at h
    · rename_i hrule
      rw [hrule]
    · rename_i hrule
      rw [hrule]
      cases children with
      | nil => cases h
      | cons first rest => exact ih first List.mem_cons_self h
    · cases h

/-- Leaving out the trees that do not show makes no difference to their texts in a row. -/
theorem join_shownTexts (ts : List Tree) :
    String.join (shownTexts ts) = String.join (visibleTexts ts) := by
  induction ts with
  | nil => rfl
  | cons t ts ih =>
    rw [shownTexts, visibleTexts, String.join_cons, ← ih]
    cases hshows : shows t with
    | true => rw [if_pos rfl, String.join_cons]
    | false => rw [if_neg Bool.false_ne_true, visibleText_of_not_shows hshows, String.empty_append]

/-! ## The text of a node -/

/-- Separated nodes have separated texts. -/
theorem textOfList_separate (spacer : String) : ∀ ns : List Node,
    Node.textOfList (separate ns (.text spacer)) = spacer.intercalate (ns.map Node.plainText)
  | [] => rfl
  | [n] => by
    show n.plainText ++ "" = _
    rw [String.append_empty, List.map_singleton, String.intercalate_singleton]
  | n :: m :: rest => by
    show n.plainText ++ (spacer ++ Node.textOfList (separate (m :: rest) (.text spacer))) = _
    rw [textOfList_separate spacer (m :: rest), List.map_cons, List.map_cons, List.map_cons,
      String.intercalate_cons_cons, String.append_assoc]

/-- The text of the node that a rule puts around others. -/
theorem plainText_node? {rule : Rule} {scope : Scope} {attributes : Attributes} {nodes : List Node}
    {n : Node} (h : rule.node? scope attributes nodes = some n) :
    n.plainText = if rule = .parameterList then
        "(" ++ ", ".intercalate (nodes.map Node.plainText) ++ ")"
      else String.join (nodes.map Node.plainText) := by
  rw [← Node.textOfList_eq_join]
  cases rule with
  | skip | collapse => cases h
  | rename | sectionBlock | title | admonition =>
    obtain rfl := Option.some.inj h
    rw [if_neg nofun]
    rfl
  | fieldName | rubric =>
    obtain rfl := Option.some.inj h
    rw [if_neg nofun]
    exact String.append_empty
  | parameterList =>
    obtain rfl := Option.some.inj h
    rw [if_pos rfl, ← textOfList_separate, Node.ofKind, Node.plainText, Node.textOfList_eq_join,
      Node.textOfList_eq_join]
    simp [Node.plainText, String.append_assoc]
  | reference =>
    rw [if_neg nofun]
    unfold Rule.node? at h
    dsimp only at h
    split at h <;> obtain rfl := Option.some.inj h <;> rfl

/-- The texts of the nodes of some trees, given what becomes of each tree. -/
theorem plainText_nodesIn {scope : Scope} {anchor : Option String} {ts : List Tree}
    {nodes : List Node} (h : nodesIn scope anchor ts = .ok nodes)
    (hts : ∀ t ∈ ts, ∀ own, nodeIn scope t = .ok own →
      own.map Node.plainText = if shows t then some (visibleText t) else none) :
    nodes.map Node.plainText = shownTexts ts := by
  induction ts generalizing anchor nodes with
  | nil =>
    unfold nodesIn at h
    obtain rfl := Except.ok.inj h
    rfl
  | cons t ts ih =>
    obtain ⟨own, rest, hown, hrest, rfl⟩ := nodesIn_cons h
    obtain ⟨hfirst, hothers⟩ := List.forall_mem_cons.mp hts
    rw [List.map_append, ih hrest hothers, shownTexts]
    -- A child that does not show becomes no node, and its text is left out.
    have htext := hfirst own hown
    cases own with
    | none =>
      split at htext
      · cases htext
      · rename_i hshows
        rw [if_neg hshows]
        rfl
    | some n =>
      split at htext
      · rename_i hshows
        rw [if_pos hshows, ← Option.some.inj htext]
        simp
      · cases htext

/-- The node of a tree has its visible text, in any scope. -/
theorem plainText_nodeIn {t : Tree} : ∀ {scope : Scope} {node? : Option Node},
    nodeIn scope t = .ok node? →
      node?.map Node.plainText = if shows t then some (visibleText t) else none := by
  induction t using Tree.induction with
  | text value =>
    intro scope node? h
    unfold nodeIn at h
    obtain rfl := Except.ok.inj h
    rfl
  | element name attributes children ih =>
    intro scope node? h
    unfold shows visibleText
    -- Skipped, collapsed onto its first child, or put around the nodes of all children.
    rcases nodeIn_element h with ⟨hrule, rfl⟩ | ⟨hrule, hfirst⟩ | ⟨rule, nodes, n, hrule, hwraps,
      hnodes, hn, rfl⟩
    · rw [hrule]
      rfl
    · rw [hrule]
      rcases firstNodeIn_eq_ok hfirst with ⟨rfl, rfl⟩ | ⟨first, rest, rfl, hnode⟩
      · rfl
      · exact ih first List.mem_cons_self hnode
    · have htexts := plainText_nodesIn hnodes fun t ht own hown => ih t ht hown
      rw [hrule, Option.map_some, plainText_node? hn, htexts, join_shownTexts]
      cases rule with
      | skip | collapse => cases hwraps
      | _ => rfl

/-- Where nothing is left out or added, the visible text is the whole text. -/
theorem KeepsAll.visibleText_eq {t : Tree} (h : KeepsAll t) :
    shows t = true ∧ visibleText t = t.textContent := by
  induction h with
  | text value => exact ⟨rfl, rfl⟩
  | @element name attributes children hskip hcollapse hparameters _ ih =>
    have hjoin : ∀ ts : List Tree, (∀ t ∈ ts, shows t = true ∧ visibleText t = t.textContent) →
        String.join (visibleTexts ts) = Tree.textOfList ts := by
      intro ts hts
      induction ts with
      | nil => rfl
      | cons t ts iht =>
        obtain ⟨⟨-, hfirst⟩, hothers⟩ := List.forall_mem_cons.mp hts
        rw [visibleTexts, String.join_cons, hfirst, iht hothers, Tree.textOfList]
    unfold shows visibleText
    rw [Tree.textContent, ← hjoin children ih]
    cases hrule : Rule.ofName? name with
    | none => exact ⟨rfl, rfl⟩
    | some rule =>
      cases rule with
      | skip => exact absurd hrule hskip
      | collapse => exact absurd hrule hcollapse
      | parameterList => exact absurd hrule hparameters
      | _ => exact ⟨rfl, rfl⟩

/-- **No text is lost, doubled or moved.** In what becomes of a tree:

- there is a node exactly if the tree shows;
- the text of the node is the visible text of the tree;
- it is the whole text of the tree if no element in it is skipped, collapsed or a parameter list, and
  then there is a node. -/
theorem plainText_nodeOf {t : Tree} {node? : Option Node} (h : nodeOf t = .ok node?) :
    node?.isSome = shows t ∧
    (∀ n, node? = some n → n.plainText = visibleText t) ∧
    (KeepsAll t → ∃ n, node? = some n ∧ n.plainText = t.textContent) := by
  have htext := plainText_nodeIn h
  cases hshows : shows t with
  | true =>
    rw [hshows, if_pos rfl] at htext
    obtain ⟨n, rfl, hn⟩ := Option.map_eq_some_iff.mp htext
    refine ⟨rfl, fun m hm => ?_, fun hkeeps => ⟨n, rfl, hn.trans hkeeps.visibleText_eq.2⟩⟩
    rw [← Option.some.inj hm]
    exact hn
  | false =>
    rw [hshows, if_neg Bool.false_ne_true, Option.map_eq_none_iff] at htext
    subst htext
    refine ⟨rfl, nofun, fun hkeeps => ?_⟩
    rw [hkeeps.visibleText_eq.1] at hshows
    cases hshows

/-- A signature whose parameter list has a skipped element, a space that collapses onto one, and an
operator without a child among its parameters. -/
def sampleSignature : Tree :=
  .element "desc_signature" [] [
    .element "desc_name" [] [.text "f"],
    .element "desc_parameterlist" [] [
      .element "desc_parameter" [] [.element "desc_sig_name" [] [.text "x"]],
      .element "index" [] [.text "hidden"],
      .element "desc_sig_space" [] [.element "target" [("refid", "y")] []],
      .element "desc_sig_operator" [] [],
      .element "desc_parameter" [] [.element "desc_sig_space" [] [.text "y", .text "z"]]]]

/-- Only what becomes a node counts as a parameter, and an empty one does. -/
theorem plainText_sampleSignature :
    ∃ n, nodeOf sampleSignature = .ok (some n) ∧ n.plainText = "f(x, , y)" := by
  have hvisible : visibleText sampleSignature = "f(x, , y)" := by rfl
  refine ⟨_, rfl, ?_⟩
  rw [← hvisible]
  exact (plainText_nodeOf (t := sampleSignature) rfl).2.1 _ rfl

end Description

end DocWeave
