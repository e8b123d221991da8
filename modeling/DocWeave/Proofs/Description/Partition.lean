import DocWeave.Proofs.Description.Grouping
import DocWeave.Proofs.Description.Translation
import DocWeave.Proofs.Text.Words

/-!
# Grouping loses and moves nothing

The descriptions below an element are told by where they stand, as the numbers of the children on the
way down. Ordered as sequences of numbers, the positions of a tree are in document order: an element
comes before what it encloses, and that before what follows the element.

- `NamesModule`, `moduleOf?_eq_some_iff`, `moduleOf?_eq_none_iff`: which module a description names.
- `OutermostAt`: a position of a description that no other one encloses.
- `positionsIn`: the positions of the descriptions that are listed.
- `ModuleIndex.Partitions`: every element is in one bucket, or dropped.
- `descriptions_partitioned`: listing and grouping together.
-/

namespace DocWeave

namespace Xml

/-- The tree at a position: the numbers of the children on the way down to it. -/
def Tree.at? : Tree → List Nat → Option Tree
  | t, [] => some t
  | .text _, _ :: _ => none
  | .element _ _ children, i :: p => children[i]?.bind (·.at? p)

theorem Tree.at?_nil (t : Tree) : t.at? [] = some t := by
  cases t <;> rfl

theorem Tree.at?_cons (name : String) (attributes : Attributes) (children : List Tree) (i : Nat)
    (p : List Nat) :
    (Tree.element name attributes children).at? (i :: p) = children[i]?.bind (·.at? p) := rfl

end Xml

namespace Description

open Xml (Attributes Element Tree)

/-! ## The module of a description -/

/-- Among the words of the ids, the first that starts like the id of a module goes on with this name. -/
def NamesModule (e : Element) (name : String) : Prop :=
  ∃ ids before after, e.attribute? "ids" = some ids ∧
    Text.Words ids.toList (before ++ (modulePrefix ++ name.toList) :: after) ∧
    ∀ word ∈ before, ¬ modulePrefix <+: word

/-- An id names the module whose name stands behind the prefix. -/
theorem moduleOfId_eq_some {id : List Char} {name : String} :
    moduleOfId id = some name ↔ id = modulePrefix ++ name.toList := by
  unfold moduleOfId
  split
  · rename_i h
    obtain ⟨rest, rfl⟩ := List.isPrefixOf_iff_prefix.mp h
    rw [List.drop_left, Option.some_inj, List.append_cancel_left_eq]
    exact ⟨fun hname => by rw [← hname, String.toList_ofList],
      fun hrest => by rw [hrest, String.ofList_toList]⟩
  · rename_i h
    refine iff_of_false nofun fun hid => h ?_
    exact List.isPrefixOf_iff_prefix.mpr ⟨name.toList, hid.symm⟩

/-- Without the prefix it names none. -/
theorem moduleOfId_eq_none {id : List Char} : moduleOfId id = none ↔ ¬ modulePrefix <+: id := by
  unfold moduleOfId
  rw [ite_eq_right_iff, ← List.isPrefixOf_iff_prefix]
  exact imp_congr_right fun _ => iff_of_false nofun not_false

/-- The module of a description is the one that it names. -/
theorem moduleOf?_eq_some_iff {e : Element} {name : String} :
    moduleOf? e = some name ↔ NamesModule e name := by
  unfold moduleOf? NamesModule
  cases e.attribute? "ids" with
  | none => exact ⟨nofun, nofun⟩
  | some ids =>
    constructor
    · intro h
      obtain ⟨before, word, after, hwords, hword, hbefore⟩ := List.findSome?_eq_some_iff.mp h
      rw [moduleOfId_eq_some.mp hword] at hwords
      exact ⟨ids, before, after, rfl, Text.words_iff.mpr hwords.symm,
        fun w hw => moduleOfId_eq_none.mp (hbefore w hw)⟩
    · rintro ⟨_, before, after, ⟨⟩, hwords, hbefore⟩
      exact List.findSome?_eq_some_iff.mpr ⟨before, _, after, (Text.words_iff.mp hwords).symm,
        moduleOfId_eq_some.mpr rfl, fun w hw => moduleOfId_eq_none.mpr (hbefore w hw)⟩

/-- A description names no module if none of its ids does. -/
theorem moduleOf?_eq_none_iff {e : Element} :
    moduleOf? e = none ↔ ∀ ids, e.attribute? "ids" = some ids →
      ∀ ws, Text.Words ids.toList ws → ∀ word ∈ ws, ¬ modulePrefix <+: word := by
  unfold moduleOf?
  cases e.attribute? "ids" with
  | none => exact ⟨fun _ => nofun, fun _ => rfl⟩
  | some ids =>
    rw [List.findSome?_eq_none_iff]
    constructor
    · rintro h _ ⟨⟩ ws hws word hword
      rw [Text.words_iff.mp hws] at hword
      exact moduleOfId_eq_none.mp (h word hword)
    · intro h word hword
      exact moduleOfId_eq_none.mpr (h ids rfl _ (Text.words_iff.mpr rfl) word hword)

/-! ## Positions of descriptions -/

/-- A description stands at a position of a tree. -/
def DescribedAt (t : Tree) (p : List Nat) : Prop :=
  ∃ attributes children, t.at? p = some (.element descriptionName attributes children)

/-- A description stands at a position of a tree, and none on the way to it. -/
structure FirstAt (t : Tree) (p : List Nat) : Prop where
  described : DescribedAt t p
  first : ∀ q, q <+: p → q ≠ p → ¬ DescribedAt t q

/-- A description stands at a position below an element, and no other one below the element encloses
it. -/
structure OutermostAt (root : Element) (p : List Nat) : Prop where
  below : p ≠ []
  described : DescribedAt root.toTree p
  outermost : ∀ q, q ≠ [] → q <+: p → q ≠ p → ¬ DescribedAt root.toTree q

/-- At its own position, an element is a description if it has the name of one. -/
theorem describedAt_nil {name : String} {attributes : Attributes} {children : List Tree} :
    DescribedAt (.element name attributes children) [] ↔ name = descriptionName := by
  unfold DescribedAt
  rw [Tree.at?_nil]
  constructor
  · rintro ⟨_, _, h⟩
    exact (Tree.element.inj (Option.some.inj h)).1
  · rintro rfl
    exact ⟨attributes, children, rfl⟩

theorem describedAt_cons {name : String} {attributes : Attributes} {children : List Tree} {i : Nat}
    {p : List Nat} :
    DescribedAt (.element name attributes children) (i :: p) ↔
      ∃ t, children[i]? = some t ∧ DescribedAt t p := by
  unfold DescribedAt
  rw [Tree.at?_cons]
  simp only [Option.bind_eq_some_iff]
  constructor
  · rintro ⟨as, ts, t, ht, hat⟩
    exact ⟨t, ht, as, ts, hat⟩
  · rintro ⟨t, ht, as, ts, hat⟩
    exact ⟨as, ts, t, ht, hat⟩

theorem not_describedAt_text (value : String) (p : List Nat) : ¬ DescribedAt (.text value) p := by
  rintro ⟨_, _, h⟩
  cases p <;> cases h

/-- What stands outermost below an element stands first in one of its children. -/
theorem outermostAt_iff {root : Element} {p : List Nat} :
    OutermostAt root p ↔ ∃ i q t, p = i :: q ∧ root.children[i]? = some t ∧ FirstAt t q := by
  constructor
  · rintro ⟨hp, hdescribed, houter⟩
    obtain ⟨i, q, rfl⟩ := List.exists_cons_of_ne_nil hp
    obtain ⟨t, ht, hq⟩ := describedAt_cons.mp hdescribed
    refine ⟨i, q, t, rfl, ht, hq, fun r hr hne hdesc => ?_⟩
    exact houter (i :: r) (List.cons_ne_nil i r) ((List.prefix_cons_inj i).mpr hr)
      (fun heq => hne (List.cons.inj heq).2) (describedAt_cons.mpr ⟨t, ht, hdesc⟩)
  · rintro ⟨i, q, t, rfl, ht, hdescribed, hfirst⟩
    refine ⟨List.cons_ne_nil i q, describedAt_cons.mpr ⟨t, ht, hdescribed⟩, ?_⟩
    intro r hr hprefix hne hdesc
    obtain ⟨j, r, rfl⟩ := List.exists_cons_of_ne_nil hr
    obtain ⟨rfl, hshorter⟩ := List.cons_prefix_cons.mp hprefix
    obtain ⟨t', ht', hdesc⟩ := describedAt_cons.mp hdesc
    obtain rfl := Option.some.inj (ht.symm.trans ht')
    exact hfirst r hshorter (fun heq => hne (heq ▸ rfl)) hdesc

/-- In a description, it comes first itself. -/
theorem firstAt_description {attributes : Attributes} {children : List Tree} {p : List Nat} :
    FirstAt (.element descriptionName attributes children) p ↔ p = [] := by
  -- The empty position comes before every other one.
  have hroot : DescribedAt (.element descriptionName attributes children) [] := describedAt_nil.mpr rfl
  constructor
  · intro h
    by_contra hp
    exact h.first [] List.nil_prefix (Ne.symm hp) hroot
  · rintro rfl
    exact ⟨hroot, fun q hq hne => absurd (List.prefix_nil.mp hq) hne⟩

/-- In any other element, the outermost ones come first. -/
theorem firstAt_element {e : Element} (h : e.name ≠ descriptionName) {p : List Nat} :
    FirstAt e.toTree p ↔ OutermostAt e p := by
  have hroot : ¬ DescribedAt e.toTree [] := fun hdesc => h (describedAt_nil.mp hdesc)
  constructor
  · exact fun hp => ⟨fun hnil => hroot (hnil ▸ hp.described), hp.described, fun q _ => hp.first q⟩
  · refine fun hp => ⟨hp.described, fun q hprefix hne hdesc => ?_⟩
    exact hp.outermost q (fun hnil => hroot (hnil ▸ hdesc)) hprefix hne hdesc

/-! ## The positions that are listed -/

mutual

/-- The positions of the outermost descriptions of a tree. -/
def positionsIn : Tree → List (List Nat)
  | .text _ => []
  | .element name _ children =>
    if name = descriptionName then [[]] else positionsInList 0 children

/-- The positions of the outermost descriptions of the children from a number on. -/
def positionsInList (i : Nat) : List Tree → List (List Nat)
  | [] => []
  | t :: ts => (positionsIn t).map (i :: ·) ++ positionsInList (i + 1) ts

end

/-- A position among children starts with the number of a child, and goes on inside it. -/
theorem mem_positionsInList {i : Nat} {ts : List Tree} {p : List Nat} :
    p ∈ positionsInList i ts ↔ ∃ k q t, p = (i + k) :: q ∧ ts[k]? = some t ∧ q ∈ positionsIn t := by
  induction ts generalizing i with
  | nil =>
    rw [positionsInList]
    simp
  | cons t ts ih =>
    rw [positionsInList, List.mem_append, List.mem_map, ih]
    constructor
    · rintro (⟨q, hq, rfl⟩ | ⟨k, q, u, rfl, hu, hq⟩)
      · exact ⟨0, q, t, rfl, rfl, hq⟩
      · exact ⟨k + 1, q, u, by rw [Nat.add_right_comm, Nat.add_assoc], hu, hq⟩
    · rintro ⟨_ | k, q, u, rfl, hu, hq⟩
      · exact .inl ⟨q, Option.some.inj hu ▸ hq, rfl⟩
      · exact .inr ⟨k, q, u, by rw [Nat.add_right_comm, Nat.add_assoc], hu, hq⟩

/-- The positions of the outermost descriptions are those at which a description stands first. -/
theorem mem_positionsIn {t : Tree} : ∀ {p : List Nat}, p ∈ positionsIn t ↔ FirstAt t p := by
  induction t using Tree.induction with
  | text value =>
    intro p
    exact iff_of_false List.not_mem_nil fun h => not_describedAt_text value p h.described
  | element name attributes children ih =>
    intro p
    rw [positionsIn]
    by_cases hname : name = descriptionName
    · subst hname
      rw [if_pos rfl, List.mem_singleton, firstAt_description]
    · have hfirst : FirstAt (.element name attributes children) p ↔
          OutermostAt ⟨name, attributes, children⟩ p :=
        firstAt_element (e := ⟨name, attributes, children⟩) hname
      rw [if_neg hname, mem_positionsInList, hfirst, outermostAt_iff]
      simp only [Nat.zero_add]
      -- Both sides name a child and a position in it, which is the same one by induction.
      refine exists_congr fun i => exists_congr fun q => exists_congr fun t => and_congr_right fun _ =>
        and_congr_right fun ht => ih t (List.mem_of_getElem? ht)

/-- The positions in later children come later. -/
theorem lt_of_mem_positionsInList {i j : Nat} {ts : List Tree} {p q : List Nat} (hij : i < j)
    (hp : p ∈ positionsInList j ts) : i :: q < p := by
  obtain ⟨k, r, t, rfl, -, -⟩ := mem_positionsInList.mp hp
  exact List.cons_lt_cons_iff.mpr (.inl (by omega))

/-- If the positions in each child are in order, so are those in all of them. -/
theorem pairwise_positionsInList {ts : List Tree}
    (h : ∀ t ∈ ts, (positionsIn t).Pairwise (· < ·)) (i : Nat) :
    (positionsInList i ts).Pairwise (· < ·) := by
  induction ts generalizing i with
  | nil => exact List.Pairwise.nil
  | cons t ts ih =>
    obtain ⟨ht, hts⟩ := List.forall_mem_cons.mp h
    rw [positionsInList]
    refine List.pairwise_append.mpr ⟨?_, ih hts (i + 1), ?_⟩
    -- in one child they come as its own positions do, in front of those in the children after it
    · exact List.pairwise_map.mpr (ht.imp fun hlt => List.cons_lt_cons_iff.mpr (.inr ⟨rfl, hlt⟩))
    · intro p hp q hq
      obtain ⟨r, -, rfl⟩ := List.mem_map.mp hp
      exact lt_of_mem_positionsInList (Nat.lt_succ_self i) hq

/-- The positions come in document order, each of them once. -/
theorem pairwise_positionsIn (t : Tree) : (positionsIn t).Pairwise (· < ·) := by
  induction t using Tree.induction with
  | text value => exact List.Pairwise.nil
  | element name attributes children ih =>
    rw [positionsIn]
    split
    · exact List.pairwise_singleton _ _
    · exact pairwise_positionsInList ih 0

/-- At the positions in the children of an element stand their outermost descriptions. -/
theorem map_at?_positionsInList {name : String} {attributes : Attributes} {children : List Tree}
    {ts : List Tree}
    (h : ∀ t ∈ ts, (positionsIn t).map t.at? = (descriptionsIn t).map fun e => some e.toTree) :
    ∀ {i : Nat}, (∀ k, ts[k]? = children[i + k]?) →
      (positionsInList i ts).map (Tree.element name attributes children).at? =
        (descriptionsInList ts).map fun e => some e.toTree := by
  induction ts with
  | nil => exact fun _ => rfl
  | cons t ts ih =>
    intro i hchildren
    obtain ⟨ht, hts⟩ := List.forall_mem_cons.mp h
    have hchild : children[i]? = some t := (hchildren 0).symm
    have hrest : ∀ k, ts[k]? = children[i + 1 + k]? := fun k => by
      rw [Nat.add_right_comm]
      exact hchildren (k + 1)
    -- The steps behind the number of a child are steps in that child.
    have hhere : (Tree.element name attributes children).at? ∘ (i :: ·) = t.at? :=
      funext fun p => by
        rw [Function.comp_apply, Tree.at?_cons, hchild]
        rfl
    rw [positionsInList, descriptionsInList, List.map_append, List.map_append, List.map_map, hhere,
      ht, ih hts hrest]

/-- At the positions that are listed stand the descriptions that are listed. -/
theorem map_at?_positionsIn (t : Tree) :
    (positionsIn t).map t.at? = (descriptionsIn t).map fun e => some e.toTree := by
  induction t using Tree.induction with
  | text value => rfl
  | element name attributes children ih =>
    rw [positionsIn, descriptionsIn]
    split
    · rw [List.map_singleton, Tree.at?_nil]
      rfl
    · exact map_at?_positionsInList ih fun k => by rw [Nat.zero_add]

/-- Below an element, these are the positions of the outermost descriptions. -/
theorem mem_positionsInList_children {root : Element} {p : List Nat} :
    p ∈ positionsInList 0 root.children ↔ OutermostAt root p := by
  rw [mem_positionsInList, outermostAt_iff]
  simp only [Nat.zero_add, mem_positionsIn]

/-! ## The sizes of the buckets -/

namespace ModuleIndex

/-- How many descriptions have been sorted in or dropped. -/
def total (index : ModuleIndex) : Nat :=
  (index.buckets.map (·.2.length)).sum + index.dropped

/-- Each element is counted once, in its bucket or among those dropped. -/
theorem total_add (index : ModuleIndex) (e : Element) : (index.add e).total = index.total + 1 := by
  unfold ModuleIndex.add total
  cases moduleOf? e with
  | none => rfl
  | some name =>
    -- The bucket of the module grows by one, also if it is a new one.
    have hsize : ∀ old : Option (List Element),
        (old.getD [] ++ [e]).length = (old.map List.length).getD 0 + 1 := fun old => by
      cases old <;> simp
    have hsum := Table.sum_update name hsize index.buckets
    dsimp only
    rw [hsum, Nat.add_right_comm]

theorem total_foldl_add (elements : List Element) (index : ModuleIndex) :
    (elements.foldl ModuleIndex.add index).total = index.total + elements.length := by
  induction elements generalizing index with
  | nil => rfl
  | cons e rest ih =>
    rw [List.foldl_cons, ih, total_add, List.length_cons]
    omega

/-- Every element is in one bucket, or dropped. -/
structure Partitions (index : ModuleIndex) (elements : List Element) : Prop where
  /-- A module has a bucket if one of the elements names it. -/
  bucket_iff : ∀ name, (∃ bucket, index.get? name = some bucket) ↔
    ∃ e ∈ elements, moduleOf? e = some name
  /-- A bucket holds the elements that name its module, in order. -/
  bucket_eq : ∀ name bucket, index.get? name = some bucket →
    bucket = elements.filter fun e => moduleOf? e = some name
  /-- The modules with a bucket are listed in ascending order. -/
  mem_modules : ∀ name, name ∈ index.modules ↔ ∃ bucket, index.get? name = some bucket
  modules_ascending : index.modules.Pairwise (· < ·)
  sizes : (index.modules.map fun name => ((index.get? name).getD []).length).sum + index.dropped =
    elements.length

/-- The buckets are found under the modules that are listed. -/
theorem Indexes.sum_modules {index : ModuleIndex} {elements : List Element}
    (h : Indexes index elements) :
    (index.modules.map fun name => ((index.get? name).getD []).length).sum + index.dropped =
      index.total := by
  have hmap : (index.modules.map fun name => ((index.get? name).getD []).length) =
      index.buckets.map (·.2.length) := by
    have hbuckets := congrArg (List.map fun bucket => (bucket.getD []).length)
      (Table.map_get?_names h.ascending)
    rwa [List.map_map, List.map_map] at hbuckets
  rw [hmap, total]

/-- A module has a bucket if an element names it. -/
theorem exists_bucket?_iff {name : String} {elements : List Element} :
    (∃ bucket, bucket? name elements = some bucket) ↔ ∃ e ∈ elements, moduleOf? e = some name := by
  constructor
  · rintro ⟨bucket, h⟩
    obtain ⟨rfl, hne⟩ := bucket?_eq_some.mp h
    obtain ⟨e, he⟩ := List.exists_mem_of_ne_nil _ hne
    exact ⟨e, mem_ofModule.mp he⟩
  · rintro ⟨e, he⟩
    exact ⟨_, bucket?_eq_some.mpr ⟨rfl, List.ne_nil_of_mem (mem_ofModule.mpr he)⟩⟩

/-- Grouping puts every element in one place. -/
theorem partitions_ofList (elements : List Element) : (ofList elements).Partitions elements where
  bucket_iff name := by rw [get?_ofList, exists_bucket?_iff]
  bucket_eq name bucket h := by
    rw [get?_ofList] at h
    exact (bucket?_eq_some.mp h).1
  mem_modules name := by
    rw [← Option.isSome_iff_exists]
    exact Table.isSome_get?_iff.symm
  modules_ascending := (indexes_ofList elements).ascending
  sizes := by
    rw [(indexes_ofList elements).sum_modules]
    exact (total_foldl_add elements {}).trans (Nat.zero_add _)

end ModuleIndex

/-- **Listing and grouping lose nothing and keep the order.**

- Listed are the outermost descriptions below an element, in document order and each of them once.
- Whatever elements are grouped, each is in the bucket of its module, or it is dropped.
- The module of an element is named by the first of its ids that names one; without such an id, it has
  none. -/
theorem descriptions_partitioned (root : Element) (elements : List Element) (e : Element) :
    (∃ positions : List (List Nat), positions.Pairwise (· < ·) ∧
      (∀ p, p ∈ positions ↔ OutermostAt root p) ∧
      positions.map root.toTree.at? = (descriptions root).map fun d => some d.toTree) ∧
    (ModuleIndex.ofList elements).Partitions elements ∧
    (∀ name, moduleOf? e = some name ↔ NamesModule e name) ∧
    (moduleOf? e = none ↔ ∀ ids, e.attribute? "ids" = some ids →
      ∀ ws, Text.Words ids.toList ws → ∀ word ∈ ws, ¬ modulePrefix <+: word) := by
  refine ⟨⟨positionsInList 0 root.children, ?_, fun p => mem_positionsInList_children, ?_⟩,
    ModuleIndex.partitions_ofList elements, fun name => moduleOf?_eq_some_iff, moduleOf?_eq_none_iff⟩
  · exact pairwise_positionsInList (fun t _ => pairwise_positionsIn t) 0
  · exact map_at?_positionsInList (fun t _ => map_at?_positionsIn t) fun k => by rw [Nat.zero_add]

end Description

end DocWeave
