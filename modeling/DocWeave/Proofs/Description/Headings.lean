import DocWeave.Proofs.Description.Reach
import DocWeave.Proofs.Description.Translation
import DocWeave.Proofs.Node.Headings

/-!
# Headings of a description

A title becomes a heading as deep as there are sections around it, within the six depths that a page has.
The count of sections stops at the largest byte, which is far beyond the depths that are told apart.

- `titleDepths`: the titles that are looked at, each with the depth that the sections around it ask for.
- `headings_nodeIn`: the headings in the node of a tree are those of its titles.
-/

namespace DocWeave

@[simp]
theorem Node.headings_withId (n : Node) (anchor : Option String) :
    (n.withId anchor).headings = n.headings := by
  cases anchor with
  | none => rfl
  | some id => cases n <;> rfl

namespace Description

open Xml (Attributes Element Tree)

/-! ## Titles and the sections around them -/

namespace Occurrence

/-- Whether the element is a title that is looked at. -/
def isTitle (o : Occurrence) : Bool :=
  o.isReached && o.name = "title"

/-- How many sections enclose the element. -/
def sections (o : Occurrence) : Nat :=
  o.around.countP fun a => a.1 = "section"

end Occurrence

/-- The depths that titles among some elements have by the sections around them: at least one, at most
six. -/
def titleDepths (os : List Occurrence) : List Nat :=
  (os.filter Occurrence.isTitle).map fun o => min 6 (max 1 o.sections)

theorem titleDepths_append (as bs : List Occurrence) :
    titleDepths (as ++ bs) = titleDepths as ++ titleDepths bs := by
  rw [titleDepths, List.filter_append, List.map_append]
  rfl

/-- Where nothing is looked at, there are no titles. -/
theorem titleDepths_closed {os : List Occurrence} (h : ∀ o ∈ os, o.isReached = false) :
    titleDepths os = [] := by
  rw [titleDepths, List.map_eq_nil_iff, List.filter_eq_nil_iff]
  intro o ho
  rw [Occurrence.isTitle, h o ho, Bool.false_and]
  exact Bool.false_ne_true

/-- A rule that only one name has. -/
theorem Rule.ofName?_iff {rule : Rule} {only : String}
    (hall : ∀ p ∈ rules, p.2 = rule → p.1 = only) (hrule : Rule.ofName? only = some rule)
    {name : String} : Rule.ofName? name = some rule ↔ name = only := by
  constructor
  · intro h
    obtain ⟨before, after, hsplit, -⟩ := List.lookup_eq_some_iff.mp h
    have hmem : (name, rule) ∈ rules := hsplit ▸ List.mem_append_right _ List.mem_cons_self
    exact hall _ hmem rfl
  · rintro rfl
    exact hrule

theorem ofName?_eq_title {name : String} : Rule.ofName? name = some .title ↔ name = "title" :=
  Rule.ofName?_iff (by decide) rfl

theorem ofName?_eq_section {name : String} :
    Rule.ofName? name = some .sectionBlock ↔ name = "section" :=
  Rule.ofName?_iff (by decide) rfl

/-! ## Scopes -/

/-- A scope counts a number of sections, up to the largest byte. -/
def Scope.Counts (scope : Scope) (n : Nat) : Prop :=
  scope.sections.toNat = min 255 n

theorem counts_zero : Scope.Counts {} 0 := rfl

theorem Scope.Counts.inSection {scope : Scope} {n : Nat} (h : scope.Counts n) :
    scope.inSection.Counts (n + 1) := by
  unfold Counts at h ⊢
  unfold Scope.inSection
  split
  · rename_i hfull
    rw [hfull] at h ⊢
    have hbyte : (255 : UInt8).toNat = 255 := rfl
    omega
  · rename_i hroom
    have hlt : scope.sections.toNat ≠ 255 := fun heq => hroom (UInt8.toNat_inj.mp heq)
    rw [UInt8.toNat_add]
    have hone : (1 : UInt8).toNat = 1 := rfl
    omega

/-- Beyond six sections it does not matter how many they are. -/
theorem Scope.Counts.titleDepth {scope : Scope} {n : Nat} (h : scope.Counts n) :
    scope.titleDepth.toNat = min 6 (max 1 n) := by
  unfold Counts at h
  unfold Scope.titleDepth
  have hone : (1 : UInt8).toNat = 1 := rfl
  have hsix : (6 : UInt8).toNat = 6 := rfl
  split
  · rename_i hlow
    have hlow := UInt8.lt_iff_toNat_lt.mp hlow
    omega
  · rename_i hlow
    have hlow := mt UInt8.lt_iff_toNat_lt.mpr hlow
    split
    · rename_i hhigh
      have hhigh := UInt8.lt_iff_toNat_lt.mp hhigh
      omega
    · rename_i hhigh
      have hhigh := mt UInt8.lt_iff_toNat_lt.mpr hhigh
      omega

/-- The scope of the children counts the element itself if it is a section. -/
theorem Scope.Counts.inner {scope : Scope} {name : String} {rule : Rule}
    (hrule : Rule.ofName? name = some rule) {around : List (String × Nat)}
    (h : scope.Counts (around.countP fun a => a.1 = "section")) (child : Nat) :
    (rule.inner scope).Counts (((name, child) :: around).countP fun a => a.1 = "section") := by
  rw [List.countP_cons]
  -- Only an element with the rule of sections is one, so only this one is counted.
  by_cases hsection : rule = .sectionBlock
  · subst hsection
    rw [if_pos (decide_eq_true (ofName?_eq_section.mp hrule))]
    exact h.inSection
  · have hname : name ≠ "section" := fun hname =>
      hsection (Option.some.inj (hrule.symm.trans (ofName?_eq_section.mpr hname)))
    rw [if_neg (by simpa using hname)]
    cases rule <;> first | exact h | contradiction

/-- An element that is looked at counts by itself exactly if it has the rule of titles. -/
theorem titleDepths_singleton {scope : Scope} {around : List (String × Nat)} {name : String}
    {rule : Rule} (hopen : isOpen around = true)
    (hscope : scope.Counts (around.countP fun a => a.1 = "section"))
    (hrule : Rule.ofName? name = some rule) :
    titleDepths [⟨around, name⟩] = if rule = .title then [scope.titleDepth.toNat] else [] := by
  have hreached : Occurrence.isReached ⟨around, name⟩ = true := hopen
  unfold titleDepths
  rw [List.filter_singleton, Occurrence.isTitle, hreached, Bool.true_and]
  by_cases htitle : rule = .title
  · subst htitle
    rw [if_pos rfl, decide_eq_true (ofName?_eq_title.mp hrule), hscope.titleDepth]
    rfl
  · have hname : name ≠ "title" := fun hname =>
      htitle (Option.some.inj (hrule.symm.trans (ofName?_eq_title.mpr hname)))
    rw [if_neg htitle, decide_eq_false hname]
    rfl

/-! ## The headings of a node -/

/-- Texts between nodes add no headings. -/
theorem headingsOfList_separate (spacer : String) : ∀ ns : List Node,
    Node.headingsOfList (separate ns (.text spacer)) = Node.headingsOfList ns
  | [] => rfl
  | [_] => rfl
  | n :: m :: rest => by
    show n.headings ++ ([] ++ Node.headingsOfList (separate (m :: rest) (.text spacer))) = _
    rw [headingsOfList_separate spacer (m :: rest)]
    rfl

/-- The headings of the node that a rule puts around others. -/
theorem headings_node? {rule : Rule} {scope : Scope} {attributes : Attributes} {nodes : List Node}
    {n : Node} (h : rule.node? scope attributes nodes = some n) :
    n.headings = (if rule = .title then [scope.titleDepth] else []) ++ Node.headingsOfList nodes := by
  cases rule with
  | skip | collapse => cases h
  | title =>
    obtain rfl := Option.some.inj h
    rfl
  | rename | sectionBlock | admonition =>
    obtain rfl := Option.some.inj h
    rw [if_neg nofun]
    rfl
  | fieldName | rubric =>
    obtain rfl := Option.some.inj h
    rw [if_neg nofun]
    exact List.append_nil _
  | parameterList =>
    obtain rfl := Option.some.inj h
    rw [if_neg nofun, List.nil_append, ← headingsOfList_separate ", " nodes, Node.ofKind,
      Node.headings, Node.headingsOfList_append]
    exact List.append_nil _
  | reference =>
    rw [if_neg nofun]
    unfold Rule.node? at h
    dsimp only at h
    split at h <;> obtain rfl := Option.some.inj h <;> rfl

/-- The headings of the nodes of some children, given those of each child. -/
theorem headings_nodesIn {scope : Scope} {around : List (String × Nat)} {parent : String}
    {ts : List Tree}
    (hts : ∀ t ∈ ts, ∀ i own, nodeIn scope t = .ok own →
      (own.elim [] Node.headings).map UInt8.toNat =
        titleDepths (occurrencesIn ((parent, i) :: around) t)) :
    ∀ {anchor : Option String} {nodes : List Node} (i : Nat), nodesIn scope anchor ts = .ok nodes →
      (Node.headingsOfList nodes).map UInt8.toNat =
        titleDepths (occurrencesInList around parent i ts) := by
  -- The anchor that is pending does not matter: an id adds no heading.
  induction ts with
  | nil =>
    intro anchor nodes i h
    unfold nodesIn at h
    obtain rfl := Except.ok.inj h
    rfl
  | cons t ts ih =>
    intro anchor nodes i h
    obtain ⟨own, rest, hown, hrest, rfl⟩ := nodesIn_cons h
    obtain ⟨hfirst, hothers⟩ := List.forall_mem_cons.mp hts
    have hself : Node.headingsOfList (own.map (·.withId anchor)).toList = own.elim [] Node.headings := by
      cases own with
      | none => rfl
      | some n =>
        show (n.withId anchor).headings ++ [] = _
        rw [List.append_nil, Node.headings_withId]
        rfl
    rw [Node.headingsOfList_append, hself, List.map_append, hfirst i own hown,
      ih hothers (i + 1) hrest, occurrencesInList, titleDepths_append]

/-- The headings in the node of a tree are those of the titles in it that are looked at. -/
theorem headings_nodeIn {t : Tree} : ∀ {scope : Scope} {around : List (String × Nat)}
    {node? : Option Node}, isOpen around = true →
      scope.Counts (around.countP fun a => a.1 = "section") → nodeIn scope t = .ok node? →
        (node?.elim [] Node.headings).map UInt8.toNat = titleDepths (occurrencesIn around t) := by
  induction t using Tree.induction with
  | text value =>
    intro scope around node? _ _ h
    unfold nodeIn at h
    obtain rfl := Except.ok.inj h
    rfl
  | element name attributes children ih =>
    intro scope around node? hopen hscope h
    have hself {rule : Rule} (hrule : Rule.ofName? name = some rule) :
        titleDepths [⟨around, name⟩] = if rule = .title then [scope.titleDepth.toNat] else [] :=
      titleDepths_singleton hopen hscope hrule
    rw [occurrencesIn, ← List.singleton_append, titleDepths_append]
    rcases nodeIn_element h with ⟨hrule, rfl⟩ | ⟨hrule, hfirst⟩ | ⟨rule, nodes, n, hrule, hwraps,
      hnodes, hn, rfl⟩
    · rw [hself hrule, titleDepths_closed (isReached_of_closed fun j _ => isOpen_of_skip hrule around j)]
      rfl
    · rw [hself hrule, if_neg nofun, List.nil_append]
      rcases firstNodeIn_eq_ok hfirst with ⟨rfl, rfl⟩ | ⟨first, rest, rfl, hnode⟩
      · rfl
      · -- Only the first child is looked at, and it is in no further section.
        have hinner := hscope.inner hrule 0
        rw [occurrencesInList, titleDepths_append,
          titleDepths_closed (isReached_of_closed fun j => isOpen_of_later hrule around),
          List.append_nil]
        exact ih first List.mem_cons_self ((isOpen_of_collapse hrule around).trans hopen) hinner hnode
    · have hskip : rule ≠ .skip := by
        rintro rfl
        cases hwraps
      have hcollapse : rule ≠ .collapse := by
        rintro rfl
        cases hwraps
      have hchildren : (Node.headingsOfList nodes).map UInt8.toNat =
          titleDepths (occurrencesInList around name 0 children) :=
        headings_nodesIn (fun t ht i own hown => ih t ht
          ((isOpen_of_other hrule hskip hcollapse around i).trans hopen) (hscope.inner hrule i) hown)
          0 hnodes
      rw [hself hrule, ← hchildren]
      show n.headings.map UInt8.toNat = _
      rw [headings_node? hn, List.map_append]
      split <;> rfl

end Description

end DocWeave
