import DocWeave.Description.Nodes
import Mathlib.Data.List.Forall2
import Mathlib.Data.List.ReduceOption

/-!
# The elements that are looked at

Making nodes of a tree passes over what lies below a skipped element, and over all children of a
collapsed element but the first. An element with an unknown name matters only if it is looked at.

- `Occurrence`, `occurrencesIn`: all elements of a tree in document order, each with its
  surroundings.
- `Occurrence.isReached`: whether an element is looked at, which depends on its surroundings alone.
- `firstUnsupported`: the first reached element without a rule.
- `failing_nodesOf`: making nodes fails exactly if there is such an element, and names it.
- `Occurrence.Fails`: the same said by the rules of the elements around one.
- `fails_at_first_reached`: when making nodes fails, at which element, and what it makes otherwise.
- `nodesOf_eq_ok`: what is made of descriptions that do not fail.
-/

namespace DocWeave.Description

open Xml (Attributes Element Tree)

/-- An element of a tree with the elements that enclose it, innermost first. Each of these comes
with the number of its child on the way to the element. -/
structure Occurrence where
  /-- The names of the enclosing elements, with the numbers of children counted from zero. -/
  around : List (String × Nat)
  /-- The name of the element. -/
  name : String
deriving Repr, DecidableEq

/-- Whether a child of an element with some name is looked at if the element is. -/
def leadsOn (name : String) (child : Nat) : Bool :=
  match Rule.ofName? name with
  | some .skip => false
  | some .collapse => child = 0
  | _ => true

/-- Whether the elements around lead on to a place. -/
def isOpen (around : List (String × Nat)) : Bool :=
  around.all fun a => leadsOn a.1 a.2

namespace Occurrence

/-- Whether the element is looked at. -/
def isReached (o : Occurrence) : Bool :=
  isOpen o.around

/-- Whether the name of the element has no rule. -/
def isUnsupported (o : Occurrence) : Bool :=
  (Rule.ofName? o.name).isNone

end Occurrence

mutual

/-- The elements of a tree in document order. -/
def occurrencesIn (around : List (String × Nat)) : Tree → List Occurrence
  | .text _ => []
  | .element name _ children => ⟨around, name⟩ :: occurrencesInList around name 0 children

/-- The elements of the children of an element in document order, the first child of which has
number `i`. -/
def occurrencesInList (around : List (String × Nat)) (parent : String) (i : Nat) :
    List Tree → List Occurrence
  | [] => []
  | t :: ts => occurrencesIn ((parent, i) :: around) t ++ occurrencesInList around parent (i + 1) ts

end

/-- The name of the first element that is looked at and has no rule. -/
def firstUnsupported (occurrences : List Occurrence) : Option String :=
  (occurrences.find? fun o => o.isReached && o.isUnsupported).map (·.name)

/-- The elements of descriptions, one description after the other. -/
def occurrencesOf (elements : List Element) : List Occurrence :=
  elements.flatMap fun e => occurrencesIn [] e.toTree

/-- The name that a failed computation complains about. -/
def failing {α : Type} : Except UnknownElement α → Option String
  | .ok _ => none
  | .error e => some e.name

theorem failing_eq_some {α : Type} {r : Except UnknownElement α} {name : String} :
    failing r = some name ↔ r = .error ⟨name⟩ := by
  cases r with
  | ok _ => exact ⟨nofun, nofun⟩
  | error e =>
    constructor
    · intro h
      obtain rfl : e.name = name := Option.some.inj h
      rfl
    · intro h
      rw [Except.error.inj h]
      rfl

@[simp]
theorem failing_map {α β : Type} (f : α → β) (r : Except UnknownElement α) :
    failing (r.map f) = failing r := by
  cases r <;> rfl

/-- The first part decides, if it has an unsupported element. -/
theorem firstUnsupported_append (as bs : List Occurrence) :
    firstUnsupported (as ++ bs) = (firstUnsupported as).or (firstUnsupported bs) := by
  unfold firstUnsupported
  rw [List.find?_append]
  cases as.find? fun o => o.isReached && o.isUnsupported <;> rfl

theorem firstUnsupported_cons (o : Occurrence) (os : List Occurrence) :
    firstUnsupported (o :: os) =
      if o.isReached && o.isUnsupported then some o.name else firstUnsupported os := by
  unfold firstUnsupported
  rw [List.find?_cons]
  split <;> simp [*]

theorem isOpen_cons (name : String) (child : Nat) (around : List (String × Nat)) :
    isOpen ((name, child) :: around) = (leadsOn name child && isOpen around) := rfl

/-! ## Places that are not looked at -/

mutual

/-- The elements around an element of a tree go on outwards with those around the tree. -/
theorem suffix_around {around : List (String × Nat)} {o : Occurrence} :
    ∀ {t : Tree}, o ∈ occurrencesIn around t → around <:+ o.around
  | .text _, h => nomatch h
  | .element name attributes children, h => by
    -- The element itself comes first, and what stands below has it around.
    rw [occurrencesIn] at h
    rcases List.mem_cons.mp h with rfl | h
    · exact List.suffix_rfl
    · obtain ⟨j, -, hsuffix⟩ := exists_suffix_around h
      exact (List.suffix_cons _ _).trans hsuffix

/-- An element below the children of another one stands in a child of it. -/
theorem exists_suffix_around {around : List (String × Nat)} {parent : String} {o : Occurrence} :
    ∀ {ts : List Tree} {i : Nat}, o ∈ occurrencesInList around parent i ts →
      ∃ j, i ≤ j ∧ (parent, j) :: around <:+ o.around
  | [], _, h => nomatch h
  | t :: ts, i, h => by
    rw [occurrencesInList] at h
    rcases List.mem_append.mp h with h | h
    · exact ⟨i, Nat.le_refl i, suffix_around h⟩
    · obtain ⟨j, hj, hsuffix⟩ := exists_suffix_around h
      exact ⟨j, Nat.le_of_succ_le hj, hsuffix⟩

end

/-- Nothing is looked at below children that the element does not lead on to. -/
theorem isReached_of_closed {around : List (String × Nat)} {parent : String} {i : Nat} {ts : List Tree}
    (h : ∀ j, i ≤ j → isOpen ((parent, j) :: around) = false) :
    ∀ o ∈ occurrencesInList around parent i ts, o.isReached = false := by
  intro o ho
  obtain ⟨j, hj, outer, hsuffix⟩ := exists_suffix_around ho
  -- One child on the way is not led on to, and that is enough.
  have hclosed := h j hj
  unfold isOpen at hclosed
  rw [Occurrence.isReached, isOpen, ← hsuffix, List.all_append, hclosed, Bool.and_false]

theorem firstUnsupported_closed {os : List Occurrence} (h : ∀ o ∈ os, o.isReached = false) :
    firstUnsupported os = none := by
  rw [firstUnsupported, Option.map_eq_none_iff, List.find?_eq_none]
  intro o ho
  rw [h o ho, Bool.false_and]
  exact Bool.false_ne_true

/-- A skipped element leads on to none of its children. -/
theorem isOpen_of_skip {name : String} (hrule : Rule.ofName? name = some .skip)
    (around : List (String × Nat)) (child : Nat) : isOpen ((name, child) :: around) = false := by
  rw [isOpen_cons, leadsOn, hrule, Bool.false_and]

/-- A collapsed element leads on to its first child. -/
theorem isOpen_of_collapse {name : String} (hrule : Rule.ofName? name = some .collapse)
    (around : List (String × Nat)) : isOpen ((name, 0) :: around) = isOpen around := by
  rw [isOpen_cons, leadsOn, hrule]
  rfl

/-- It leads on to no other child. -/
theorem isOpen_of_later {name : String} (hrule : Rule.ofName? name = some .collapse)
    (around : List (String × Nat)) {child : Nat} (hchild : 1 ≤ child) :
    isOpen ((name, child) :: around) = false := by
  rw [isOpen_cons, leadsOn, hrule]
  simp [Nat.one_le_iff_ne_zero.mp hchild]

/-- All other elements lead on to all of their children. -/
theorem isOpen_of_other {name : String} {rule : Rule} (hrule : Rule.ofName? name = some rule)
    (hskip : rule ≠ .skip) (hcollapse : rule ≠ .collapse) (around : List (String × Nat)) (child : Nat) :
    isOpen ((name, child) :: around) = isOpen around := by
  rw [isOpen_cons, leadsOn, hrule]
  cases rule <;> first | contradiction | rw [Bool.true_and]

/-! ## When making nodes fails -/

mutual

/-- A tree fails at its first reached element without a rule. -/
theorem failing_nodeIn {around : List (String × Nat)} (h : isOpen around = true) (scope : Scope) :
    ∀ t, failing (nodeIn scope t) = firstUnsupported (occurrencesIn around t)
  | .text _ => by
    rw [nodeIn, occurrencesIn]
    rfl
  | .element name attributes children => by
    have hself : Occurrence.isReached ⟨around, name⟩ = true := h
    rw [occurrencesIn, firstUnsupported_cons, hself, Bool.true_and]
    unfold nodeIn Occurrence.isUnsupported
    cases hrule : Rule.ofName? name with
    | none => rfl
    | some rule =>
      rw [Option.isNone_some, if_neg Bool.false_ne_true]
      -- Only the two rules that pass over children differ from the others.
      by_cases hskip : rule = .skip
      · subst hskip
        exact (firstUnsupported_closed
          (isReached_of_closed fun j _ => isOpen_of_skip hrule around j)).symm
      · by_cases hcollapse : rule = .collapse
        · subst hcollapse
          exact failing_firstNodeIn h hrule scope children
        · have hopen (i : Nat) : isOpen ((name, i) :: around) = true :=
            (isOpen_of_other hrule hskip hcollapse around i).trans h
          have hchildren := failing_nodesIn hopen (rule.inner scope) none 0 children
          rw [← hchildren]
          cases rule <;> first
            | contradiction
            | (dsimp only
               cases nodesIn (Rule.inner _ scope) none children <;> rfl)

/-- A collapsed element fails where its first child does. -/
theorem failing_firstNodeIn {around : List (String × Nat)} (h : isOpen around = true)
    {name : String} (hrule : Rule.ofName? name = some .collapse) (scope : Scope) :
    ∀ ts, failing (firstNodeIn scope ts) = firstUnsupported (occurrencesInList around name 0 ts)
  | [] => by
    rw [firstNodeIn, occurrencesInList]
    rfl
  | t :: ts => by
    have hfirst : isOpen ((name, 0) :: around) = true :=
      (isOpen_of_collapse hrule around).trans h
    rw [firstNodeIn, occurrencesInList, firstUnsupported_append,
      firstUnsupported_closed (isReached_of_closed fun j => isOpen_of_later hrule around),
      Option.or_none]
    exact failing_nodeIn hfirst scope t

/-- A list of trees fails at the first reached element without a rule in any of them. -/
theorem failing_nodesIn {around : List (String × Nat)} {parent : String}
    (h : ∀ i, isOpen ((parent, i) :: around) = true) (scope : Scope) (anchor : Option String)
    (i : Nat) : ∀ ts,
      failing (nodesIn scope anchor ts) = firstUnsupported (occurrencesInList around parent i ts)
  | [] => by
    rw [nodesIn, occurrencesInList]
    rfl
  | t :: ts => by
    have hrest (anchor : Option String) := failing_nodesIn h scope anchor (i + 1) ts
    rw [occurrencesInList, firstUnsupported_append, ← failing_nodeIn (h i) scope t]
    unfold nodesIn
    cases nodeIn scope t with
    | error e => rfl
    | ok node? =>
      cases node? with
      | none => exact hrest _
      | some node =>
        -- An anchor changes the node and what is handed on, but not where the rest fails.
        dsimp only
        split
        · split <;> exact (failing_map _ _).trans (hrest _)
        · exact (failing_map _ _).trans (hrest _)

end

/-- Descriptions fail at their first reached element without a rule. -/
theorem failing_nodesOf : ∀ es : List Element,
    failing (nodesOf es) = firstUnsupported (occurrencesOf es)
  | [] => rfl
  | e :: es => by
    have hrest := failing_nodesOf es
    have hfirst : failing (nodeOf e.toTree) = firstUnsupported (occurrencesIn [] e.toTree) :=
      failing_nodeIn rfl {} e.toTree
    rw [occurrencesOf, List.flatMap_cons, firstUnsupported_append, ← hfirst]
    unfold nodesOf
    cases nodeOf e.toTree with
    | error _ => rfl
    | ok _ => exact (failing_map _ _).trans hrest

/-! ## The element that makes it fail -/

namespace Occurrence

/-- No element around is skipped, and the way leads through the first child of each that is collapsed. -/
def Reached (o : Occurrence) : Prop :=
  ∀ a ∈ o.around, Rule.ofName? a.1 ≠ some .skip ∧ (Rule.ofName? a.1 = some .collapse → a.2 = 0)

/-- The element is looked at, and its name has no rule. -/
def Fails (o : Occurrence) : Prop :=
  o.Reached ∧ Rule.ofName? o.name = none

end Occurrence

theorem leadsOn_iff {name : String} {child : Nat} : leadsOn name child = true ↔
    Rule.ofName? name ≠ some .skip ∧ (Rule.ofName? name = some .collapse → child = 0) := by
  unfold leadsOn
  split
  · rename_i hrule
    exact ⟨nofun, fun h => absurd hrule h.1⟩
  · rename_i hrule
    rw [decide_eq_true_iff, hrule]
    exact ⟨fun h => ⟨nofun, fun _ => h⟩, fun h => h.2 rfl⟩
  · rename_i hskip hcollapse
    exact ⟨fun _ => ⟨hskip, fun h => absurd h hcollapse⟩, fun _ => rfl⟩

theorem Occurrence.fails_iff {o : Occurrence} :
    (o.isReached && o.isUnsupported) = true ↔ o.Fails := by
  unfold isReached isOpen isUnsupported Fails Reached
  rw [Bool.and_eq_true, List.all_eq_true, Option.isNone_iff_eq_none]
  simp only [leadsOn_iff]

theorem firstUnsupported_eq_none {os : List Occurrence} :
    firstUnsupported os = none ↔ ¬ ∃ o ∈ os, o.Fails := by
  unfold firstUnsupported
  rw [Option.map_eq_none_iff, List.find?_eq_none]
  simp only [Occurrence.fails_iff, not_exists, not_and]

theorem firstUnsupported_eq_some {os : List Occurrence} {name : String} :
    firstUnsupported os = some name ↔ ∃ before o after, os = before ++ o :: after ∧ o.Fails ∧
      (∀ p ∈ before, ¬ p.Fails) ∧ o.name = name := by
  unfold firstUnsupported
  rw [Option.map_eq_some_iff]
  constructor
  · rintro ⟨o, hfind, hname⟩
    obtain ⟨ho, before, after, hos, hbefore⟩ := List.find?_eq_some_iff_append.mp hfind
    refine ⟨before, o, after, hos, Occurrence.fails_iff.mp ho, fun p hp hfails => ?_, hname⟩
    have hp := hbefore p hp
    rw [Occurrence.fails_iff.mpr hfails] at hp
    cases hp
  · rintro ⟨before, o, after, hos, ho, hbefore, hname⟩
    refine ⟨o, List.find?_eq_some_iff_append.mpr ⟨Occurrence.fails_iff.mpr ho, before, after, hos,
      fun p hp => ?_⟩, hname⟩
    rw [Bool.not_eq_true', Bool.eq_false_iff]
    exact fun h => hbefore p hp (Occurrence.fails_iff.mp h)

/-! ## What is made of elements -/

/-- One more element is translated in front of the others. -/
theorem nodesOf_cons {e : Element} {es : List Element} {nodes : List Node} :
    nodesOf (e :: es) = .ok nodes ↔ ∃ node? rest, nodeOf e.toTree = .ok node? ∧
      nodesOf es = .ok rest ∧ nodes = node?.toList ++ rest := by
  rw [nodesOf]
  constructor
  · intro h
    split at h
    · cases h
    · rename_i node? hnode
      cases hrest : nodesOf es with
      | error _ =>
        rw [hrest] at h
        cases h
      | ok rest =>
        rw [hrest] at h
        exact ⟨node?, rest, hnode, rfl, (Except.ok.inj h).symm⟩
  · rintro ⟨node?, rest, hnode, hrest, rfl⟩
    rw [hnode, hrest]
    rfl

/-- Elements that do not fail are translated one by one, and those that do not show are left out. -/
theorem nodesOf_eq_ok_iff {es : List Element} {nodes : List Node} : nodesOf es = .ok nodes ↔
    ∃ shown, List.Forall₂ (fun e node? => nodeOf e.toTree = .ok node?) es shown ∧
      nodes = shown.reduceOption := by
  -- What does not show adds nothing.
  have hshow (node? : Option Node) (shown : List (Option Node)) :
      (node? :: shown).reduceOption = node?.toList ++ shown.reduceOption := by
    cases node? <;> rfl
  induction es generalizing nodes with
  | nil =>
    constructor
    · intro h
      exact ⟨[], .nil, (Except.ok.inj h).symm⟩
    · rintro ⟨_, hshown, rfl⟩
      cases hshown
      rfl
  | cons e es ih =>
    rw [nodesOf_cons]
    constructor
    · rintro ⟨node?, rest, hnode, hrest, rfl⟩
      obtain ⟨shown, hshown, rfl⟩ := ih.mp hrest
      exact ⟨node? :: shown, .cons hnode hshown, (hshow node? shown).symm⟩
    · rintro ⟨_, hshown, rfl⟩
      cases hshown with
      | cons hnode hrest => exact ⟨_, _, hnode, ih.mpr ⟨_, hrest, rfl⟩, hshow _ _⟩

/-- **Where the translation fails.** For every list of elements:

- it fails exactly if some element that is looked at has no rule;
- the error names the first such element in document order;
- if there is no such element, and only then, each element of the list has a translation, and those that
  show are the result, in order. -/
theorem fails_at_first_reached (es : List Element) :
    ((∃ error, nodesOf es = .error error) ↔ ∃ o ∈ occurrencesOf es, o.Fails) ∧
    (∀ error, nodesOf es = .error error ↔ ∃ before o after,
      occurrencesOf es = before ++ o :: after ∧ o.Fails ∧ (∀ p ∈ before, ¬ p.Fails) ∧
        error = ⟨o.name⟩) ∧
    ((¬ ∃ o ∈ occurrencesOf es, o.Fails) ↔ ∃ shown,
      List.Forall₂ (fun e node? => nodeOf e.toTree = .ok node?) es shown ∧
        nodesOf es = .ok shown.reduceOption) := by
  -- The search for the first element that fails is the translation itself.
  have hfirst (error : UnknownElement) :
      nodesOf es = .error error ↔ firstUnsupported (occurrencesOf es) = some error.name := by
    rw [← failing_nodesOf, failing_eq_some]
  have hnone : firstUnsupported (occurrencesOf es) = none ↔ ∃ nodes, nodesOf es = .ok nodes := by
    rw [← failing_nodesOf]
    cases nodesOf es with
    | ok nodes => exact ⟨fun _ => ⟨nodes, rfl⟩, fun _ => rfl⟩
    | error _ => exact ⟨nofun, nofun⟩
  refine ⟨?_, fun error => ?_, ?_⟩
  · rw [← not_iff_not, ← firstUnsupported_eq_none, hnone]
    cases nodesOf es with
    | ok nodes => exact ⟨fun _ => ⟨nodes, rfl⟩, fun _ => nofun⟩
    | error e => exact ⟨fun h => absurd ⟨e, rfl⟩ h, nofun⟩
  · have hname (o : Occurrence) : error = ⟨o.name⟩ ↔ o.name = error.name :=
      ⟨fun h => h ▸ rfl, fun h => h ▸ rfl⟩
    simp only [hfirst, firstUnsupported_eq_some, hname]
  · rw [← firstUnsupported_eq_none, hnone]
    constructor
    · rintro ⟨nodes, hnodes⟩
      obtain ⟨shown, hshown, rfl⟩ := nodesOf_eq_ok_iff.mp hnodes
      exact ⟨shown, hshown, hnodes⟩
    · rintro ⟨shown, -, hnodes⟩
      exact ⟨_, hnodes⟩

/-! ## What is made of descriptions -/

/-- A node that is the translation of a description: a block without an anchor. -/
def IsBlockOf (e : Element) (n : Node) : Prop :=
  nodeOf e.toTree = .ok (some n) ∧ n.label? = some (.plain .block) ∧ n.id? = none

/-- A description that does not fail becomes a block. -/
theorem nodeOf_description {e : Element} (hname : e.name = "desc") {node? : Option Node}
    (h : nodeOf e.toTree = .ok node?) : ∃ n, node? = some n ∧ IsBlockOf e n := by
  -- Descriptions are renamed to blocks, whatever their children become.
  have hrule : Rule.ofName? e.name = some (.rename .block) := by
    rw [hname]
    rfl
  have h' := h
  unfold nodeOf Element.toTree nodeIn at h'
  rw [hrule] at h'
  dsimp only at h'
  split at h'
  · cases h'
  · rename_i nodes _
    obtain rfl := Except.ok.inj h'
    exact ⟨Node.ofKind .block nodes, rfl, h, rfl, rfl⟩

/-- Descriptions that do not fail become blocks, one for each and in order. -/
theorem nodesOf_eq_ok {es : List Element} {nodes : List Node} (hnames : ∀ e ∈ es, e.name = "desc")
    (h : nodesOf es = .ok nodes) : List.Forall₂ IsBlockOf es nodes := by
  obtain ⟨shown, hshown, rfl⟩ := nodesOf_eq_ok_iff.mp h
  clear h
  induction hshown with
  | nil => exact .nil
  | cons hnode _ ih =>
    obtain ⟨n, rfl, hn⟩ := nodeOf_description (hnames _ List.mem_cons_self) hnode
    exact .cons hn (ih fun e he => hnames e (List.mem_cons_of_mem _ he))

end DocWeave.Description
