import DocWeave.Description.ModuleIndex
import DocWeave.Proofs.Table

/-!
# Grouping descriptions by module

The index of some descriptions holds, for each module, the descriptions that name it in the order
met, and counts those that name none.

- `ofModule`: the descriptions of a module among others.
- `ModuleIndex.Indexes`: what an index of descriptions says; every `add` keeps it.
- `ModuleIndex.get?_ofList`, `ModuleIndex.dropped_ofList`: the two readings of a whole index.
- `outermost`, `descriptions_eq_outermost`: which elements are grouped, by the elements around them.
-/

namespace DocWeave.Description

open Xml (Element Tree)

/-- The descriptions that name a module, in order. -/
def ofModule (name : String) (elements : List Element) : List Element :=
  elements.filter fun e => moduleOf? e = some name

/-- A description of a module is one that names it. -/
theorem mem_ofModule {name : String} {elements : List Element} {e : Element} :
    e ∈ ofModule name elements ↔ e ∈ elements ∧ moduleOf? e = some name := by
  rw [ofModule, List.mem_filter, decide_eq_true_iff]

namespace ModuleIndex

/-- The bucket of a module: there is none without descriptions. -/
def bucket? (name : String) (elements : List Element) : Option (List Element) :=
  if ofModule name elements = [] then none else some (ofModule name elements)

theorem bucket?_eq_none {name : String} {elements : List Element} :
    bucket? name elements = none ↔ ofModule name elements = [] := by
  unfold bucket?
  split <;> simp [*]

/-- A bucket holds all descriptions that name the module, and at least one. -/
theorem bucket?_eq_some {name : String} {elements bucket : List Element} :
    bucket? name elements = some bucket ↔ bucket = ofModule name elements ∧ bucket ≠ [] := by
  unfold bucket?
  split
  · rename_i h
    exact ⟨nofun, fun ⟨hb, hne⟩ => absurd (hb.trans h) hne⟩
  · rename_i h
    rw [Option.some.injEq]
    exact ⟨fun hb => ⟨hb.symm, hb ▸ h⟩, fun hb => hb.1.symm⟩

/-- A description adds to the bucket of its own module only. -/
theorem bucket?_append (name : String) (elements : List Element) (e : Element) :
    bucket? name (elements ++ [e]) =
      if moduleOf? e = some name then some ((bucket? name elements).getD [] ++ [e])
      else bucket? name elements := by
  have happend : ofModule name (elements ++ [e]) =
      ofModule name elements ++ if moduleOf? e = some name then [e] else [] := by
    unfold ofModule
    rw [List.filter_append]
    by_cases h : moduleOf? e = some name <;> simp [h]
  unfold bucket?
  rw [happend]
  by_cases h : moduleOf? e = some name
  · rw [if_pos h, if_pos h, if_neg (by simp)]
    by_cases hb : ofModule name elements = [] <;> simp [hb]
  · simp [if_neg h]

/-- The index sorts exactly these descriptions. -/
structure Indexes (index : ModuleIndex) (elements : List Element) : Prop where
  ascending : index.buckets.Ascending
  buckets : ∀ name, index.get? name = bucket? name elements
  dropped : index.dropped = elements.countP fun e => moduleOf? e = none

theorem indexes_nil : Indexes {} [] where
  ascending := Table.ascending_nil
  buckets _ := rfl
  dropped := rfl

/-- Sorting in one more description. -/
theorem Indexes.add {index : ModuleIndex} {elements : List Element} (h : Indexes index elements)
    (e : Element) : Indexes (index.add e) (elements ++ [e]) := by
  unfold ModuleIndex.add
  cases hm : moduleOf? e with
  | none =>
    refine ⟨h.ascending, fun name => ?_, ?_⟩
    · rw [bucket?_append, hm, if_neg nofun]
      exact h.buckets name
    · show index.dropped + 1 = _
      rw [h.dropped, List.countP_append, List.countP_singleton, hm]
      rfl
  | some found =>
    refine ⟨h.ascending.update, fun name => ?_, ?_⟩
    · -- Only the bucket of the module that is named changes.
      show Table.get? (index.buckets.update found _) name = _
      rw [Table.get?_update h.ascending, bucket?_append, hm]
      by_cases hname : name = found
      · subst hname
        rw [if_pos rfl, if_pos rfl]
        show some ((index.get? name).getD [] ++ [e]) = _
        rw [h.buckets]
      · rw [if_neg hname, if_neg (by simpa using Ne.symm hname)]
        exact h.buckets name
    · show index.dropped = _
      rw [h.dropped, List.countP_append, List.countP_singleton, hm]
      rfl

theorem Indexes.foldl_add {index : ModuleIndex} {before : List Element} (h : Indexes index before) :
    ∀ elements, Indexes (elements.foldl ModuleIndex.add index) (before ++ elements)
  | [] => by
    rw [List.append_nil]
    exact h
  | e :: rest => by
    have := (h.add e).foldl_add rest
    rwa [List.append_assoc] at this

/-- The index of a list sorts the descriptions of that list. -/
theorem indexes_ofList (elements : List Element) : Indexes (ofList elements) elements :=
  indexes_nil.foldl_add elements

/-- Under a module, the index has its bucket. -/
theorem get?_ofList (elements : List Element) (name : String) :
    (ofList elements).get? name = bucket? name elements :=
  (indexes_ofList elements).buckets name

/-- Besides, it has the number of descriptions that name no module. -/
theorem dropped_ofList (elements : List Element) :
    (ofList elements).dropped = elements.countP fun e => moduleOf? e = none :=
  (indexes_ofList elements).dropped

end ModuleIndex

/-! ## The elements that are grouped -/

/-- An element of a tree with the names of the elements that enclose it. -/
structure Placed where
  /-- The names of the enclosing elements, innermost first. -/
  above : List String
  /-- The element. -/
  element : Element

mutual

/-- The elements of a tree in document order. -/
def placedIn (above : List String) : Tree → List Placed
  | .text _ => []
  | .element name attributes children =>
    ⟨above, ⟨name, attributes, children⟩⟩ :: placedInList (name :: above) children

/-- The elements of a list of trees in document order. -/
def placedInList (above : List String) : List Tree → List Placed
  | [] => []
  | t :: ts => placedIn above t ++ placedInList above ts

end

/-- Whether an element is a description that no other description encloses. -/
def Placed.isOutermost (p : Placed) : Bool :=
  p.element.name = descriptionName && !p.above.contains descriptionName

/-- The descriptions below an element that no other description below it encloses, in document
order. -/
def outermost (root : Element) : List Element :=
  ((placedInList [] root.children).filter Placed.isOutermost).map (·.element)

mutual

/-- Below a description there is no outermost one. -/
theorem filter_placedIn_inside {above : List String} (h : above.contains descriptionName = true) :
    ∀ t, (placedIn above t).filter Placed.isOutermost = []
  | .text _ => rfl
  | .element name attributes children => by
    have hinner : (name :: above).contains descriptionName = true := by
      rw [List.contains_cons, h, Bool.or_true]
    have hself : Placed.isOutermost ⟨above, ⟨name, attributes, children⟩⟩ = false := by
      rw [Placed.isOutermost, h, Bool.not_true, Bool.and_false]
    rw [placedIn, List.filter_cons, hself, if_neg Bool.false_ne_true]
    exact filter_placedInList_inside hinner children

/-- Nor is there one among trees below a description. -/
theorem filter_placedInList_inside {above : List String}
    (h : above.contains descriptionName = true) :
    ∀ ts, (placedInList above ts).filter Placed.isOutermost = []
  | [] => rfl
  | t :: ts => by
    rw [placedInList, List.filter_append, filter_placedIn_inside h t,
      filter_placedInList_inside h ts]
    rfl

end

mutual

/-- Outside of descriptions, the search for them finds the outermost ones. -/
theorem descriptionsIn_eq {above : List String} (h : above.contains descriptionName = false) :
    ∀ t, descriptionsIn t = ((placedIn above t).filter Placed.isOutermost).map (·.element)
  | .text _ => rfl
  | .element name attributes children => by
    rw [placedIn, List.filter_cons]
    unfold descriptionsIn
    -- The search stops at a description, below which no other one is outermost.
    by_cases hname : name = descriptionName
    · have hself : Placed.isOutermost ⟨above, ⟨name, attributes, children⟩⟩ = true := by
        rw [Placed.isOutermost, h, hname, decide_eq_true rfl]
        rfl
      have hinner : (name :: above).contains descriptionName = true := by
        rw [List.contains_cons, hname, beq_self_eq_true, Bool.true_or]
      rw [if_pos hname, hself, if_pos rfl, filter_placedInList_inside hinner]
      rfl
    · have hself : Placed.isOutermost ⟨above, ⟨name, attributes, children⟩⟩ = false := by
        rw [Placed.isOutermost, decide_eq_false hname, Bool.false_and]
      have hinner : (name :: above).contains descriptionName = false := by
        rw [List.contains_cons, h, Bool.or_false]
        exact beq_false_of_ne (Ne.symm hname)
      rw [if_neg hname, hself, if_neg Bool.false_ne_true]
      exact descriptionsInList_eq hinner children

theorem descriptionsInList_eq {above : List String} (h : above.contains descriptionName = false) :
    ∀ ts, descriptionsInList ts =
      ((placedInList above ts).filter Placed.isOutermost).map (·.element)
  | [] => rfl
  | t :: ts => by
    rw [descriptionsInList, placedInList, List.filter_append, List.map_append,
      ← descriptionsIn_eq h t, ← descriptionsInList_eq h ts]

end

/-- The descriptions that are grouped are the outermost ones. -/
theorem descriptions_eq_outermost (root : Element) : descriptions root = outermost root :=
  descriptionsInList_eq rfl root.children

/-- Every outermost description is named as one. -/
theorem name_outermost {root e : Element} (h : e ∈ outermost root) : e.name = descriptionName := by
  obtain ⟨p, hp, rfl⟩ := List.mem_map.mp h
  have houter : p.isOutermost = true := (List.mem_filter.mp hp).2
  rw [Placed.isOutermost, Bool.and_eq_true] at houter
  exact of_decide_eq_true houter.1

end DocWeave.Description
