import DocWeave.Proofs.Description.Translation
import Mathlib.Data.List.ReduceOption
import Mathlib.Data.Nat.Find

/-!
# Where anchors land

A target gives its id to the next sibling that becomes a node other than a text. There is one place for
an id that is pending, so of several targets in front of such a sibling only the last one is heard.

- `Awaits`: the id that is pending in front of a child, read off the children before it.
- `Lands`: the nodes of a child list have their ids from the targets of this list, each where it is due.
- `ListIn`: the child lists of a tree that are gone through.
- `anchors_land`: all ids of a translated tree are accounted for.
- `anchors_kept_iff`: which ids of targets are not lost.
-/

namespace DocWeave

namespace Node

/-- One node stands somewhere below another one. -/
inductive Below : Node → Node → Prop where
  | child {m n : Node} (hm : m ∈ n.children) : Below m n
  | deeper {m k n : Node} (hm : Below m k) (hk : k ∈ n.children) : Below m n

theorem below_iff {m n : Node} : Below m n ↔ ∃ k ∈ n.children, m = k ∨ Below m k := by
  constructor
  · intro h
    cases h with
    | child hm => exact ⟨m, hm, Or.inl rfl⟩
    | deeper hm hk => exact ⟨_, hk, Or.inr hm⟩
  · rintro ⟨k, hk, rfl | hm⟩
    · exact .child hk
    · exact .deeper hm hk

theorem not_below_text {m : Node} {value : String} : ¬ Below m (.text value) := by
  intro hbelow
  obtain ⟨k, hk, -⟩ := below_iff.mp hbelow
  cases hk

/-- An id makes no difference to what stands below. -/
@[simp]
theorem below_withId {m n : Node} {anchor : Option String} :
    Below m (n.withId anchor) ↔ Below m n := by
  rw [below_iff, below_iff, children_withId]

end Node

namespace Description

open Xml (Attributes Tree)

variable {scope : Scope} {ts : List Tree}

/-! ## The id that is pending -/

/-- The id of the child with number `i`, if it is a target that has one. -/
def targetAt (ts : List Tree) (i : Nat) : Option String :=
  ts[i]?.bind targetId

/-- Whether the child with number `i` becomes a node that can have an anchor. -/
def showsAt (scope : Scope) (ts : List Tree) (i : Nat) : Bool :=
  ts[i]?.any (showsNode scope)

/-- An id is pending in front of the child with number `j`: a target before has it, and between the two
there is neither another target with an id nor a node that would have taken it. -/
def Awaits (scope : Scope) (ts : List Tree) (j : Nat) (id : String) : Prop :=
  ∃ i < j, targetAt ts i = some id ∧
    ∀ k, i < k → k < j → targetAt ts k = none ∧ showsAt scope ts k = false

/-- The anchor that is pending after some children. -/
def pending (scope : Scope) (anchor : Option String) (ts : List Tree) : Option String :=
  ts.foldl (anchorAfter scope) anchor

theorem awaits_zero {id : String} : ¬ Awaits scope ts 0 id :=
  fun ⟨_, hi, _⟩ => Nat.not_lt_zero _ hi

/-- What is pending after one more child. -/
theorem awaits_succ {j : Nat} {id : String} : Awaits scope ts (j + 1) id ↔
    targetAt ts j = some id ∨
      targetAt ts j = none ∧ showsAt scope ts j = false ∧ Awaits scope ts j id := by
  constructor
  · rintro ⟨i, hi, htarget, hbetween⟩
    rcases Nat.lt_succ_iff_lt_or_eq.mp hi with hlt | rfl
    · obtain ⟨hnone, hshows⟩ := hbetween j hlt (Nat.lt_succ_self j)
      exact Or.inr ⟨hnone, hshows, i, hlt, htarget, fun k hik hkj =>
        hbetween k hik (Nat.lt_succ_of_lt hkj)⟩
    · exact Or.inl htarget
  · rintro (htarget | ⟨hnone, hshows, i, hi, htarget, hbetween⟩)
    · exact ⟨j, Nat.lt_succ_self j, htarget, fun k hjk hkj =>
        absurd (Nat.lt_of_lt_of_le hjk (Nat.le_of_lt_succ hkj)) (Nat.lt_irrefl j)⟩
    · refine ⟨i, Nat.lt_succ_of_lt hi, htarget, fun k hik hkj => ?_⟩
      rcases Nat.lt_succ_iff_lt_or_eq.mp hkj with hlt | rfl
      · exact hbetween k hik hlt
      · exact ⟨hnone, hshows⟩

/-- A target with an id shows no node. -/
theorem showsNode_of_targetId {t : Tree} {id : String} (h : targetId t = some id) :
    showsNode scope t = false :=
  showsNode_of_nodeIn (nodeIn_of_targetId h scope)

/-- What is pending after a child is its own id, or what was pending before if it leaves that alone. -/
theorem anchorAfter_eq_some {anchor : Option String} {t : Tree} {id : String} :
    anchorAfter scope anchor t = some id ↔
      targetId t = some id ∨ targetId t = none ∧ showsNode scope t = false ∧ anchor = some id := by
  unfold anchorAfter
  cases htarget : targetId t with
  | some given => simp [showsNode_of_targetId htarget]
  | none => cases showsNode scope t <;> simp

/-- The pending anchor is the last one that has not been taken. -/
theorem pending_take {j : Nat} {id : String} (hj : j ≤ ts.length) :
    pending scope none (ts.take j) = some id ↔ Awaits scope ts j id := by
  -- One more child changes both sides in the same way.
  induction j with
  | zero => exact ⟨nofun, fun h => (awaits_zero h).elim⟩
  | succ j ih =>
    have hget : ts[j]? = some ts[j] := List.getElem?_eq_getElem hj
    -- The children are gone through from the left, so the last one changes what is pending.
    have htake : pending scope none (ts.take (j + 1)) =
        anchorAfter scope (pending scope none (ts.take j)) ts[j] := by
      rw [List.take_succ_eq_append_getElem hj, pending, List.foldl_append]
      rfl
    have htarget : targetAt ts j = targetId ts[j] := by rw [targetAt, hget, Option.bind_some]
    have hshows : showsAt scope ts j = showsNode scope ts[j] := by
      rw [showsAt, hget, Option.any_some]
    rw [htake, anchorAfter_eq_some, awaits_succ, htarget, hshows, ih (Nat.le_of_succ_le hj)]

/-! ## The nodes of a child list -/

/-- A node that was made of the child with number `j`: it is the node of this child, which had no id, with
the id that was pending. A text is left without. -/
structure LandedAt (scope : Scope) (ts : List Tree) (j : Nat) (t : Tree) (n : Node) : Prop where
  own : ∃ own, nodeIn scope t = .ok (some own) ∧ own.id? = none ∧ n = own.withId n.id?
  id : ∀ id, n.id? = some id ↔ n.isText = false ∧ Awaits scope ts j id

/-- Nodes were made of children, one of each child that shows and in order, with the ids that are due. -/
def Lands (scope : Scope) (ts : List Tree) (nodes : List Node) : Prop :=
  ∃ landed : List (Option Node), nodes = landed.reduceOption ∧ landed.length = ts.length ∧
    ∀ j t, ts[j]? = some t → landed[j]? = some none ∧ nodeIn scope t = .ok none ∨
      ∃ n, landed[j]? = some (some n) ∧ LandedAt scope ts j t n

/-- Every child that shows becomes a node with the anchor that is pending in front of it. -/
theorem exists_landed {anchor : Option String} {nodes : List Node}
    (h : nodesIn scope anchor ts = .ok nodes) :
    ∃ landed : List (Option Node), nodes = landed.reduceOption ∧ landed.length = ts.length ∧
      ∀ j t, ts[j]? = some t → ∃ own, nodeIn scope t = .ok own ∧
        landed[j]? = some (own.map (·.withId (pending scope anchor (ts.take j)))) := by
  induction ts generalizing anchor nodes with
  | nil =>
    unfold nodesIn at h
    obtain rfl := Except.ok.inj h
    exact ⟨[], rfl, rfl, fun j t ht => nomatch ht⟩
  | cons first ts ih =>
    obtain ⟨own, rest, hown, hrest, rfl⟩ := nodesIn_cons h
    obtain ⟨landed, rfl, hlength, hlanded⟩ := ih hrest
    refine ⟨own.map (·.withId anchor) :: landed, ?_, congrArg Nat.succ hlength, ?_⟩
    · cases own <;> rfl
    · rintro (_ | j) t ht
      · obtain rfl := Option.some.inj ht
        exact ⟨own, hown, rfl⟩
      · exact hlanded j t ht

/-- The nodes of a child list have the ids that are due. -/
theorem lands_nodesIn {nodes : List Node} (h : nodesIn scope none ts = .ok nodes) :
    Lands scope ts nodes := by
  obtain ⟨landed, hnodes, hlength, hlanded⟩ := exists_landed h
  refine ⟨landed, hnodes, hlength, fun j t ht => ?_⟩
  obtain ⟨own, hown, hat⟩ := hlanded j t ht
  cases own with
  | none => exact Or.inl ⟨hat, hown⟩
  | some own =>
    have hj : j ≤ ts.length := Nat.le_of_lt (List.getElem?_eq_some_iff.mp ht).1
    have hid := id?_nodeIn hown
    -- The id that the node has been given is the one that was pending.
    have hawaits (id : String) :
        (own.withId (pending scope none (ts.take j))).id? = some id ↔
          own.isText = false ∧ Awaits scope ts j id := by
      rw [Node.id?_withId hid, pending_take hj]
    refine Or.inr ⟨_, hat, ⟨own, hown, hid, (Node.withId_id? hid _).symm⟩, fun id => ?_⟩
    rw [Node.isText_withId]
    exact hawaits id

/-- Every node of a child list is the node of a child, perhaps with an id. -/
theorem exists_child_of_mem {nodes : List Node} (h : nodesIn scope none ts = .ok nodes) {n : Node}
    (hn : n ∈ nodes) : ∃ j t, ts[j]? = some t ∧ LandedAt scope ts j t n := by
  obtain ⟨landed, rfl, hlength, hlanded⟩ := lands_nodesIn h
  obtain ⟨j, hj⟩ := List.mem_iff_getElem?.mp (List.reduceOption_mem_iff.mp hn)
  have hlt : j < ts.length := hlength ▸ (List.getElem?_eq_some_iff.mp hj).1
  refine ⟨j, ts[j], List.getElem?_eq_getElem hlt, ?_⟩
  rcases hlanded j ts[j] (List.getElem?_eq_getElem hlt) with ⟨hnone, -⟩ | ⟨m, hm, hat⟩
  · rw [hj] at hnone
    cases hnone
  · rw [hj] at hm
    rwa [Option.some.inj (Option.some.inj hm)]

/-- Every child that shows has a node, which is its own one but for an id. -/
theorem exists_node_of_child {nodes : List Node} (h : nodesIn scope none ts = .ok nodes) {j : Nat}
    {t : Tree} (ht : ts[j]? = some t) : ∃ own?, nodeIn scope t = .ok own? ∧
      ∀ own, own? = some own → ∃ n ∈ nodes, LandedAt scope ts j t n ∧ n = own.withId n.id? := by
  obtain ⟨landed, rfl, -, hlanded⟩ := lands_nodesIn h
  rcases hlanded j t ht with ⟨-, hnone⟩ | ⟨n, hn, hat⟩
  · exact ⟨none, hnone, nofun⟩
  · obtain ⟨own, hown, -, hwith⟩ := hat.own
    refine ⟨some own, hown, fun _ hsame => ?_⟩
    rw [← Option.some.inj hsame]
    exact ⟨n, List.reduceOption_mem_iff.mpr (List.mem_of_getElem? hn), hat, hwith⟩

/-! ## All child lists of a tree -/

/-- A list of trees is the child list of an element in a tree, and it is gone through in some scope when
nodes are made of the tree. -/
inductive ListIn : Scope → Tree → Scope → List Tree → Prop where
  | own {scope : Scope} {name : String} {attributes : Attributes} {children : List Tree} {rule : Rule}
      (hrule : Rule.ofName? name = some rule) (hwraps : rule.wraps = true) :
    ListIn scope (.element name attributes children) (rule.inner scope) children
  | child {scope inner : Scope} {name : String} {attributes : Attributes} {children ts : List Tree}
      {rule : Rule} {t : Tree} (hrule : Rule.ofName? name = some rule) (hwraps : rule.wraps = true)
      (ht : t ∈ children) (hts : ListIn (rule.inner scope) t inner ts) :
    ListIn scope (.element name attributes children) inner ts
  | first {scope inner : Scope} {name : String} {attributes : Attributes} {rest ts : List Tree}
      {t : Tree} (hrule : Rule.ofName? name = some .collapse) (hts : ListIn scope t inner ts) :
    ListIn scope (.element name attributes (t :: rest)) inner ts

theorem subset_separate {α : Type} (spacer : α) : ∀ items, items ⊆ separate items spacer
  | [] => List.nil_subset _
  | [_] => List.Subset.refl _
  | x :: y :: rest =>
    List.cons_subset_cons x (List.subset_cons_of_subset spacer (subset_separate spacer (y :: rest)))

theorem mem_or_eq_of_mem_separate {α : Type} {spacer x : α} :
    ∀ {items}, x ∈ separate items spacer → x ∈ items ∨ x = spacer
  | [], h => nomatch h
  | [_], h => Or.inl h
  | y :: z :: rest, h => by
    rcases List.mem_cons.mp h with rfl | h
    · exact Or.inl List.mem_cons_self
    · rcases List.mem_cons.mp h with rfl | h
      · exact Or.inr rfl
      · exact (mem_or_eq_of_mem_separate h).imp_left (List.mem_cons_of_mem y)

/-- The nodes that a rule puts another one around stand below it, and so does what stands below them.
Nothing else that does has an id. -/
theorem below_node? {rule : Rule} {attributes : Attributes} {nodes : List Node} {n : Node}
    (h : rule.node? scope attributes nodes = some n) {m : Node} :
    ((∃ k ∈ nodes, m = k ∨ m.Below k) → m.Below n) ∧
      ∀ id, m.id? = some id → m.Below n → ∃ k ∈ nodes, m = k ∨ m.Below k := by
  obtain ⟨-, -, hchildren | ⟨wrapper, hwrapper, hid, hchildren⟩ | hchildren⟩ := node?_eq_some h
  · rw [Node.below_iff, hchildren]
    exact ⟨fun hm => hm, fun _ _ hm => hm⟩
  · rw [Node.below_iff, hwrapper]
    constructor
    · rintro ⟨k, hk, hm⟩
      exact ⟨wrapper, List.mem_singleton_self _, Or.inr (Node.below_iff.mpr ⟨k, hchildren ▸ hk, hm⟩)⟩
    · rintro id hm ⟨k, hk, hbelow⟩
      rw [List.mem_singleton.mp hk] at hbelow
      rcases hbelow with rfl | hbelow
      · rw [hid] at hm
        cases hm
      · rwa [Node.below_iff, hchildren] at hbelow
  · -- The brackets and the commas are texts, which have no ids.
    have htext (value : String) {id : String} (hm : m.id? = some id) :
        ¬ (m = .text value ∨ m.Below (.text value)) := by
      rintro (rfl | hbelow)
      · cases hm
      · exact Node.not_below_text hbelow
    rw [Node.below_iff, hchildren]
    constructor
    · rintro ⟨k, hk, hm⟩
      exact ⟨k, List.mem_append_left _ (List.mem_cons_of_mem _ (subset_separate _ nodes hk)), hm⟩
    · rintro id hm ⟨k, hk, hbelow⟩
      rcases List.mem_append.mp hk with hk | hk
      · rcases List.mem_cons.mp hk with rfl | hk
        · exact absurd hbelow (htext _ hm)
        · rcases mem_or_eq_of_mem_separate hk with hk | rfl
          · exact ⟨k, hk, hbelow⟩
          · exact absurd hbelow (htext _ hm)
      · rw [List.mem_singleton.mp hk] at hbelow
        exact absurd hbelow (htext _ hm)

/-- A child list that is gone through has nodes, and these stand below the node of the tree. -/
theorem ListIn.exists_nodes {scope inner : Scope} {t : Tree} {ts : List Tree}
    (hts : ListIn scope t inner ts) {node? : Option Node} (h : nodeIn scope t = .ok node?) :
    ∃ n nodes, node? = some n ∧ nodesIn inner none ts = .ok nodes ∧ ∀ m ∈ nodes, m.Below n := by
  induction hts generalizing node? with
  | own hrule hwraps =>
    obtain ⟨nodes, n, hnodes, hn, rfl⟩ := nodeIn_of_wraps hrule hwraps h
    exact ⟨n, nodes, rfl, hnodes, fun m hm => (below_node? hn).1 ⟨m, hm, Or.inl rfl⟩⟩
  | child hrule hwraps ht _ ih =>
    obtain ⟨nodes, n, hnodes, hn, rfl⟩ := nodeIn_of_wraps hrule hwraps h
    obtain ⟨j, hj⟩ := List.mem_iff_getElem?.mp ht
    obtain ⟨own, hown, hland⟩ := exists_node_of_child hnodes hj
    obtain ⟨k, inside, rfl, hinside, hbelow⟩ := ih hown
    obtain ⟨k', hk', -, hwith⟩ := hland k rfl
    -- The child's node may have been given an id, which changes nothing below it.
    refine ⟨n, inside, rfl, hinside, fun m hm => (below_node? hn).1 ⟨k', hk', Or.inr ?_⟩⟩
    rw [hwith, Node.below_withId]
    exact hbelow m hm
  | first hrule _ ih =>
    rw [nodeIn_of_collapse hrule, firstNodeIn] at h
    exact ih h

/-- Below the node of a tree, only nodes of child lists have ids. -/
theorem exists_listIn_of_id {t : Tree} : ∀ {scope : Scope} {n : Node},
    nodeIn scope t = .ok (some n) → ∀ {m : Node} {id : String}, m.Below n → m.id? = some id →
      ∃ inner ts nodes, ListIn scope t inner ts ∧ nodesIn inner none ts = .ok nodes ∧ m ∈ nodes := by
  induction t using Tree.induction with
  | text value =>
    intro scope n h m id hbelow
    unfold nodeIn at h
    obtain rfl := Option.some.inj (Except.ok.inj h)
    exact absurd hbelow Node.not_below_text
  | element name attributes children ih =>
    intro scope n h m id hbelow hid
    rcases nodeIn_element h with ⟨-, hn⟩ | ⟨hrule, hfirst⟩ | ⟨rule, nodes, n', hrule, hwraps, hnodes,
      hn, hsome⟩
    · cases hn
    · rcases firstNodeIn_eq_ok hfirst with ⟨-, hn⟩ | ⟨first, rest, rfl, hnode⟩
      · obtain rfl := Option.some.inj hn
        exact absurd hbelow Node.not_below_text
      · obtain ⟨inner, ts, inside, hts, hinside, hm⟩ := ih first List.mem_cons_self hnode hbelow hid
        exact ⟨inner, ts, inside, .first hrule hts, hinside, hm⟩
    · -- The node with the id is one of this list, or it stands below one of them.
      obtain rfl := Option.some.inj hsome
      obtain ⟨k, hk, hmk⟩ := (below_node? hn).2 id hid hbelow
      rcases hmk with rfl | hmk
      · exact ⟨_, children, nodes, .own hrule hwraps, hnodes, hk⟩
      · obtain ⟨j, child, hj, hat⟩ := exists_child_of_mem hnodes hk
        obtain ⟨own, hown, -, hkown⟩ := hat.own
        rw [hkown, Node.below_withId] at hmk
        have hchild := List.mem_of_getElem? hj
        obtain ⟨inner, ts, inside, hts, hinside, hm⟩ := ih child hchild hown hmk hid
        exact ⟨inner, ts, inside, .child hrule hwraps hchild hts, hinside, hm⟩

/-! ## All anchors -/

/-- **Anchors land where they should, and nowhere else.** In the node of a tree, if it has one:

- the node itself has no id;
- the nodes of every child list that is gone through stand below it, and each has an id exactly if it is
  no text and the id of a target of the same list is pending in front of the child that it was made of;
  this child's own node, which was given the id, had none;
- every node with an id is among the nodes of such a list. -/
theorem anchors_land {t : Tree} {node? : Option Node} (h : nodeOf t = .ok node?) :
    (∀ n, node? = some n → n.id? = none) ∧
    (∀ scope ts, ListIn {} t scope ts → ∃ n nodes, node? = some n ∧
      nodesIn scope none ts = .ok nodes ∧ Lands scope ts nodes ∧ ∀ m ∈ nodes, m.Below n) ∧
    ∀ n m id, node? = some n → m.Below n → m.id? = some id → ∃ scope ts nodes,
      ListIn {} t scope ts ∧ nodesIn scope none ts = .ok nodes ∧ m ∈ nodes := by
  refine ⟨?_, fun scope ts hts => ?_, ?_⟩
  · rintro n rfl
    exact id?_nodeIn h
  · obtain ⟨n, nodes, hn, hnodes, hbelow⟩ := hts.exists_nodes h
    exact ⟨n, nodes, hn, hnodes, lands_nodesIn hnodes, hbelow⟩
  · rintro n m id rfl hbelow hid
    exact exists_listIn_of_id h hbelow hid

/-- A paragraph with a target in front of a text, which cannot have the id, and of a strong word. -/
def seedParagraph : Tree :=
  .element "paragraph" [] [.element "target" [("refid", "seed")] [], .text "the ",
    .element "strong" [] [.text "seed"]]

/-- The strong word has the id. -/
theorem anchors_land_behind_text : ∃ nodes,
    nodeOf seedParagraph = .ok (some (.ofKind .paragraph nodes)) ∧
      nodes = [.text "the ", .branch (.plain .strong) (some "seed") [.text "seed"]] ∧
        ∃ children, ListIn {} seedParagraph {} children ∧ Lands {} children nodes := by
  have h : nodeOf seedParagraph = .ok (some (.ofKind .paragraph [.text "the ",
      .branch (.plain .strong) (some "seed") [.text "seed"]])) := by rfl
  have hrule : Rule.ofName? "paragraph" = some (.rename .paragraph) := by rfl
  have hlist : ListIn {} seedParagraph {} _ := .own hrule rfl
  obtain ⟨_, nodes, -, hnodes, hlands, -⟩ := (anchors_land h).2.1 {} _ hlist
  obtain rfl := Except.ok.inj hnodes
  exact ⟨_, h, rfl, _, hlist, hlands⟩

/-! ## Anchors that are lost -/

/-- A later sibling becomes a node that can have an anchor. -/
def IsFollowed (scope : Scope) (ts : List Tree) (i : Nat) : Prop :=
  ∃ j, i < j ∧ showsAt scope ts j = true

/-- Another target with an id comes before the next such sibling. -/
def IsReplaced (scope : Scope) (ts : List Tree) (i : Nat) : Prop :=
  ∃ k, i < k ∧ targetAt ts k ≠ none ∧ ∀ l, i < l → l < k → showsAt scope ts l = false

/-- A child that shows is there. -/
theorem exists_of_showsAt {i : Nat} (h : showsAt scope ts i = true) :
    ∃ t, ts[i]? = some t ∧ showsNode scope t = true := by
  unfold showsAt at h
  cases hget : ts[i]? with
  | none =>
    rw [hget] at h
    cases h
  | some t =>
    rw [hget, Option.any_some] at h
    exact ⟨t, rfl, h⟩

/-- It is no target with an id. -/
theorem targetAt_eq_none_of_showsAt {i : Nat} (h : showsAt scope ts i = true) :
    targetAt ts i = none := by
  obtain ⟨t, hget, hshows⟩ := exists_of_showsAt h
  rw [targetAt, hget, Option.bind_some]
  cases htarget : targetId t with
  | none => rfl
  | some id =>
    rw [showsNode_of_targetId htarget] at hshows
    cases hshows

/-- The next node takes the id of a target that is not replaced. -/
theorem exists_awaits_iff {id : String} :
    (∃ j, showsAt scope ts j = true ∧ Awaits scope ts j id) ↔
      ∃ i, targetAt ts i = some id ∧ IsFollowed scope ts i ∧ ¬ IsReplaced scope ts i := by
  constructor
  · rintro ⟨j, hshows, i, hij, htarget, hbetween⟩
    -- Another target would stand before the child, at its place, or behind it.
    refine ⟨i, htarget, ⟨j, hij, hshows⟩, ?_⟩
    rintro ⟨k, hik, hk, hquiet⟩
    rcases Nat.lt_trichotomy k j with hlt | rfl | hlt
    · exact hk (hbetween k hik hlt).1
    · exact hk (targetAt_eq_none_of_showsAt hshows)
    · rw [hquiet j hij hlt] at hshows
      cases hshows
  · rintro ⟨i, htarget, hfollowed, hreplaced⟩
    -- The first sibling that shows is the one that takes the id.
    have hfirst := Nat.find_spec hfollowed
    have hquiet (k : Nat) (hik : i < k) (hk : k < Nat.find hfollowed) : showsAt scope ts k = false :=
      Bool.eq_false_iff.mpr fun hshows => Nat.find_min hfollowed hk ⟨hik, hshows⟩
    refine ⟨Nat.find hfollowed, hfirst.2, i, hfirst.1, htarget, fun k hik hk => ?_⟩
    refine ⟨?_, hquiet k hik hk⟩
    by_contra hother
    exact hreplaced ⟨k, hik, hother, fun l hil hlk => hquiet l hil (Nat.lt_trans hlk hk)⟩

/-- An id is there exactly if it is pending in front of a child that shows. -/
theorem mem_ids_iff {nodes : List Node} (h : nodesIn scope none ts = .ok nodes) {id : String} :
    (∃ n ∈ nodes, n.id? = some id) ↔ ∃ j, showsAt scope ts j = true ∧ Awaits scope ts j id := by
  constructor
  · rintro ⟨n, hn, hid⟩
    obtain ⟨j, t, ht, hat⟩ := exists_child_of_mem h hn
    obtain ⟨htext, hawaits⟩ := (hat.id id).mp hid
    obtain ⟨own, hown, -, hn⟩ := hat.own
    rw [hn, Node.isText_withId] at htext
    refine ⟨j, ?_, hawaits⟩
    rw [showsAt, ht, Option.any_some]
    exact showsNode_eq_true.mpr ⟨own, hown, htext⟩
  · rintro ⟨j, hshows, hawaits⟩
    obtain ⟨t, ht, hshows⟩ := exists_of_showsAt hshows
    obtain ⟨own, hown, htext⟩ := showsNode_eq_true.mp hshows
    obtain ⟨own', hown', hnode⟩ := exists_node_of_child h ht
    rw [hown] at hown'
    obtain ⟨n, hn, hat, hwith⟩ := hnode own (Except.ok.inj hown').symm
    refine ⟨n, hn, (hat.id id).mpr ⟨?_, hawaits⟩⟩
    rw [hwith, Node.isText_withId]
    exact htext

/-- **Which ids of targets are kept.** The nodes of a child list have the id of a target exactly if some
target with this id is followed by a sibling that becomes a node other than a text, and is not replaced
by another target before the next such sibling. So no id of a target with such a sibling behind it is
lost exactly if, for each of them that is replaced, a target with the same id is not. -/
theorem anchors_kept_iff {nodes : List Node} (h : nodesIn scope none ts = .ok nodes) :
    (∀ id, (∃ n ∈ nodes, n.id? = some id) ↔
      ∃ i, targetAt ts i = some id ∧ IsFollowed scope ts i ∧ ¬ IsReplaced scope ts i) ∧
    ((∀ i id, targetAt ts i = some id → IsFollowed scope ts i → ∃ n ∈ nodes, n.id? = some id) ↔
      ∀ i id, targetAt ts i = some id → IsFollowed scope ts i → IsReplaced scope ts i →
        ∃ i', targetAt ts i' = some id ∧ IsFollowed scope ts i' ∧ ¬ IsReplaced scope ts i') := by
  -- An id is there if a node has taken it, and then its target has not been replaced.
  have hkept (id : String) : (∃ n ∈ nodes, n.id? = some id) ↔
      ∃ i, targetAt ts i = some id ∧ IsFollowed scope ts i ∧ ¬ IsReplaced scope ts i :=
    (mem_ids_iff h).trans exists_awaits_iff
  refine ⟨hkept, fun hall i id htarget hfollowed _ => ?_, fun hall i id htarget hfollowed => ?_⟩
  · exact (hkept id).mp (hall i id htarget hfollowed)
  · by_cases hreplaced : IsReplaced scope ts i
    · exact (hkept id).mpr (hall i id htarget hfollowed hreplaced)
    · exact (hkept id).mpr ⟨i, htarget, hfollowed, hreplaced⟩

/-- Two targets in a row in front of a strong word. -/
def twoTargets : List Tree :=
  [.element "target" [("refid", "a")] [], .element "target" [("refid", "b")] [],
    .element "strong" [] [.text "x"]]

/-- The first of two targets in a row is lost. -/
theorem first_anchor_lost : targetAt twoTargets 0 = some "a" ∧ IsFollowed {} twoTargets 0 ∧
    ∃ nodes, nodesIn {} none twoTargets = .ok nodes ∧ (∃ n ∈ nodes, n.id? = some "b") ∧
      ¬ ∃ n ∈ nodes, n.id? = some "a" := by
  have h : nodesIn {} none twoTargets =
      .ok [.branch (.plain .strong) (some "b") [.text "x"]] := by rfl
  refine ⟨rfl, ⟨2, by decide, rfl⟩, _, h, ⟨_, List.mem_singleton_self _, rfl⟩, fun hlost => ?_⟩
  obtain ⟨i, htarget, -, hreplaced⟩ := ((anchors_kept_iff h).1 "a").mp hlost
  rcases i with _ | _ | _ | i
  · exact hreplaced ⟨1, by decide, by decide, fun l hl hl' =>
      absurd hl (Nat.not_lt.mpr (Nat.le_of_lt_succ hl'))⟩
  · exact absurd htarget (by decide)
  · cases htarget
  · cases htarget

end Description

end DocWeave
