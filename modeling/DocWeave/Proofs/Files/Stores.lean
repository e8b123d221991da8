import DocWeave.Files.Store
import Mathlib.Data.List.Induction

/-!
# Where paths lead in a store

A path leads through some places to a last one. Which ones they are does not depend on what the store
holds; the store says whether it is possible to get there: all places on the way have to be directories.

- `Store.Closed`: nothing stands in what is not a directory.
- `passed`, `Path.way`, `Path.goal`: the places that a path leads through, and where it leads.
- `locate_eq_ok_iff`: when a path can be followed; `locate_congr`: what this depends on.
- `Store.Reaches`: a path leads to a directory; `Reaches.locate_child`: then so do its entries.
-/

namespace DocWeave

namespace Store

variable {s t : Store} {l m here : Location} {e : Entry} {names : List String}

/-! ## Entries -/

/-- The root is a directory in every store. -/
@[simp]
theorem find?_nil (s : Store) : s.find? [] = some .directory :=
  if_pos rfl

/-- So where nothing is, is not the root. -/
theorem ne_nil_of_free (h : s.find? l = none) : l ≠ [] := by
  rintro rfl
  rw [find?_nil] at h
  cases h

theorem find?_of_ne_nil (h : l ≠ []) : s.find? l = s.entries.lookup l :=
  if_neg h

/-- What is found below the root is one of the entries. -/
theorem mem_entries_of_find? (hl : l ≠ []) (h : s.find? l = some e) : (l, e) ∈ s.entries := by
  rw [find?_of_ne_nil hl] at h
  obtain ⟨before, after, heq, -⟩ := List.lookup_eq_some_iff.mp h
  rw [heq]
  exact List.mem_append_right _ List.mem_cons_self

/-- Putting something somewhere leaves the current directory alone. -/
@[simp]
theorem current_put (s : Store) (l : Location) (e : Entry) : (s.put l e).current = s.current :=
  rfl

/-- Among some of the entries, what is found is as among all of them, if its location is kept. -/
theorem lookup_filter (keep : Location → Bool) (m : Location) (es : List (Location × Entry)) :
    (es.filter fun entry => keep entry.1).lookup m = if keep m then es.lookup m else none := by
  induction es with
  | nil => simp
  | cons first es ih =>
    obtain ⟨k, e⟩ := first
    -- The first entry decides if it is the one that is looked up, whether it is kept or not.
    by_cases hm : m = k
    · subst hm
      by_cases hk : keep m = true <;> simp [hk, ih]
    · have hne : (m == k) = false := beq_eq_false_iff_ne.mpr hm
      by_cases hk : keep k = true <;> simp [hk, ih, hne, List.lookup_cons]

/-- What is put somewhere is found there; all else stays. -/
theorem find?_put (hl : l ≠ []) (m : Location) :
    (s.put l e).find? m = if m = l then some e else s.find? m := by
  by_cases hm : m = []
  · subst hm
    rw [find?_nil, if_neg (Ne.symm hl), find?_nil]
  · have hfilter := lookup_filter (m := m) (fun k => decide (k ≠ l)) s.entries
    rw [find?_of_ne_nil hm, find?_of_ne_nil hm]
    unfold put
    rw [List.lookup_cons, hfilter]
    by_cases heq : m = l
    · simp [heq]
    · simp [heq, beq_eq_false_iff_ne.mpr heq]

/-- A tree that is removed is gone, and nothing else is. -/
theorem find?_removeTree (hl : l ≠ []) (m : Location) :
    (s.removeTree l).find? m = if l <+: m then none else s.find? m := by
  by_cases hm : m = []
  · subst hm
    rw [find?_nil, if_neg (fun h => hl (List.prefix_nil.mp h)), find?_nil]
  · have hfilter := lookup_filter (m := m) (fun k => !l.isPrefixOf k) s.entries
    rw [find?_of_ne_nil hm, find?_of_ne_nil hm]
    unfold removeTree
    rw [hfilter]
    by_cases hbelow : l <+: m
    · simp [List.isPrefixOf_iff_prefix.mpr hbelow, hbelow]
    · have hfalse : l.isPrefixOf m = false := by
        rw [Bool.eq_false_iff]
        exact fun h => hbelow (List.isPrefixOf_iff_prefix.mp h)
      simp [hfalse, hbelow]

/-! ## Stores in which all entries stand in directories -/

/-- What stands somewhere stands in a directory. -/
def Closed (s : Store) : Prop :=
  ∀ l, s.find? l ≠ none → s.find? l.dropLast = some .directory

/-- It is enough to look at the entries that are listed. -/
theorem closed_of_entries (h : ∀ entry ∈ s.entries, s.find? entry.1.dropLast = some .directory) :
    s.Closed := by
  intro l hl
  by_cases hnil : l = []
  · rw [hnil]
    exact find?_nil s
  · obtain ⟨e, he⟩ := Option.ne_none_iff_exists'.mp hl
    exact h _ (mem_entries_of_find? hnil he)

/-- Below what is not a directory there is nothing. -/
theorem Closed.find?_below (h : s.Closed) (hl : s.find? l ≠ some .directory) :
    ∀ rest, rest ≠ [] → s.find? (l ++ rest) = none := by
  intro rest
  -- From the end: what stands further down would have a parent that is not there either.
  induction rest using List.reverseRecOn with
  | nil => exact fun hne => absurd rfl hne
  | append_singleton rest name ih =>
    intro _
    by_contra hfound
    have hparent := h _ hfound
    rw [← List.append_assoc, List.dropLast_concat] at hparent
    by_cases hrest : rest = []
    · subst hrest
      rw [List.append_nil] at hparent
      exact hl hparent
    · rw [ih hrest] at hparent
      cases hparent

/-- Where there is nothing, there is nothing below either. -/
theorem Closed.nothing_below (h : s.Closed) (hl : s.find? l = none) (hbelow : l <+: m) :
    s.find? m = none := by
  obtain ⟨rest, rfl⟩ := hbelow
  by_cases hrest : rest = []
  · rw [hrest, List.append_nil, hl]
  · exact h.find?_below (by rw [hl]; nofun) rest hrest

/-- Something may be put into a directory, unless it takes the place of a directory. -/
theorem Closed.put (h : s.Closed) (hl : l ≠ []) (hparent : s.find? l.dropLast = some .directory)
    (hkeep : s.find? l = some .directory → e = .directory) : (s.put l e).Closed := by
  intro m hm
  -- The parent was there before, and is still a directory if it is replaced itself.
  have hdropLast : s.find? m.dropLast = some .directory := by
    rw [find?_put hl] at hm
    split at hm
    · rename_i heq
      rwa [heq]
    · exact h m hm
  rw [find?_put hl]
  split
  · rename_i heq
    rw [heq] at hdropLast
    rw [hkeep hdropLast]
  · exact hdropLast

theorem Closed.removeTree (h : s.Closed) (hl : l ≠ []) : (s.removeTree l).Closed := by
  intro m hm
  rw [find?_removeTree hl] at hm
  split at hm
  · exact absurd rfl hm
  · rename_i hbelow
    rw [find?_removeTree hl, if_neg (fun h => hbelow (h.trans (List.dropLast_prefix m)))]
    exact h m hm

/-- What has been put where nothing was is removed without a trace. -/
theorem Closed.removeTree_put (h : s.Closed) (hl : l ≠ []) (hfree : s.find? l = none) :
    (s.put l e).removeTree l = s := by
  -- Nothing is listed there before, so no entry goes with what is removed.
  have hbeside : ∀ entry ∈ s.entries, ¬ l <+: entry.1 := by
    rintro ⟨m, e'⟩ hmem hbelow
    have hm : m ≠ [] := by
      rintro rfl
      exact hl (List.prefix_nil.mp hbelow)
    have hnone := h.nothing_below hfree hbelow
    rw [find?_of_ne_nil hm, List.lookup_eq_none_iff] at hnone
    exact absurd (hnone _ hmem) (by simp)
  have hother : ∀ entry ∈ s.entries, decide (entry.1 ≠ l) = true := by
    intro entry hmem
    exact decide_eq_true fun heq => hbeside entry hmem (heq ▸ List.prefix_refl _)
  have hkeep : ∀ entry ∈ s.entries, (!l.isPrefixOf entry.1) = true := by
    intro entry hmem
    rw [Bool.not_eq_true', Bool.eq_false_iff, Ne, List.isPrefixOf_iff_prefix]
    exact hbeside entry hmem
  have hself : l.isPrefixOf l = true := List.isPrefixOf_iff_prefix.mpr (List.prefix_refl l)
  unfold Store.put Store.removeTree
  dsimp only
  rw [List.filter_eq_self.mpr hother, List.filter_cons_of_neg (by simp [hself]),
    List.filter_eq_self.mpr hkeep]

/-! ## Following names -/

/-- The places where names are looked up that are followed from a place. -/
def passed (here : Location) : List String → List Location
  | [] => []
  | name :: rest => here :: passed (follow here name) rest

/-- The second part is looked up from where the first one has led. -/
theorem passed_append (here : Location) (a b : List String) :
    passed here (a ++ b) = passed here a ++ passed (a.foldl follow here) b := by
  induction a generalizing here with
  | nil => rfl
  | cons name a ih => exact congrArg (List.cons here) (ih _)

/-- Single dots lead nowhere else. -/
theorem foldl_follow_dots (here : Location) (hnames : ∀ name ∈ names, name = ".") :
    names.foldl follow here = here := by
  induction names with
  | nil => rfl
  | cons name names ih =>
    obtain ⟨rfl, hrest⟩ := List.forall_mem_cons.mp hnames
    exact ih hrest

/-- Names can be followed if all places where they are looked up are directories. -/
theorem walk_eq_ok_iff : s.walk here names = .ok l ↔
    (∀ m ∈ passed here names, s.find? m = some .directory) ∧ l = names.foldl follow here := by
  induction names generalizing here with
  | nil =>
    rw [walk, Except.ok.injEq]
    exact ⟨fun h => ⟨nofun, h.symm⟩, fun h => h.2.symm⟩
  | cons name names ih =>
    rw [walk, passed, List.forall_mem_cons, List.foldl_cons]
    -- Only a directory lets the remaining names be looked up.
    split
    · rename_i hhere
      rw [ih, hhere]
      exact ⟨fun h => ⟨⟨rfl, h.1⟩, h.2⟩, fun h => ⟨h.1.2, h.2⟩⟩
    · rename_i hhere
      rw [hhere]
      exact ⟨nofun, fun h => nomatch h.1.1⟩
    · rename_i hhere
      rw [hhere]
      exact ⟨nofun, fun h => nomatch h.1.1⟩

/-- Names are followed one part after the other. -/
theorem walk_append {a b : List String} (h : s.walk here a = .ok l) :
    s.walk here (a ++ b) = s.walk l b := by
  induction a generalizing here with
  | nil =>
    obtain rfl := Except.ok.inj h
    rfl
  | cons name a ih =>
    rw [walk] at h
    rw [List.cons_append, walk]
    split at h
    · exact ih h
    · cases h
    · cases h

/-- Whether there is something at a location, and whether it is a directory. -/
def kind? (s : Store) (l : Location) : Option Bool :=
  (s.find? l).map fun e => decide (e = .directory)

/-- Following names only depends on which of the places are directories and which are missing. -/
theorem walk_congr (h : ∀ m ∈ passed here names, s.kind? m = t.kind? m) :
    s.walk here names = t.walk here names := by
  induction names generalizing here with
  | nil => rfl
  | cons name names ih =>
    rw [passed, List.forall_mem_cons] at h
    have hhere := h.1
    unfold kind? at hhere
    rw [walk, walk]
    rcases hs : s.find? here with _ | _ | _ <;> rcases ht : t.find? here with _ | _ | _ <;>
      simp [hs, ht, ih h.2] at hhere ⊢

end Store

/-! ## Splitting at slashes -/

namespace Text

/-- The pieces of two texts are not mixed if a separator stands between them. -/
theorem split_append_cons (sep : Char) (a b : List Char) :
    split sep (a ++ sep :: b) = split sep a ++ split sep b := by
  induction a with
  | nil => simp [split]
  | cons c a ih =>
    rw [List.cons_append, split, split, ih]
    split
    · rfl
    · rcases ha : split sep a with _ | ⟨piece, more⟩
      · exact absurd ha (split_ne_nil sep a)
      · rfl

theorem split_of_not_mem {sep : Char} {s : List Char} (h : sep ∉ s) : split sep s = [s] := by
  induction s with
  | nil => rfl
  | cons c s ih =>
    rw [List.mem_cons, not_or] at h
    rw [split, if_neg (Ne.symm h.1), ih h.2]

end Text

/-! ## Places that a path leads through -/

/-- A name of an entry, which is followed to this entry. -/
structure ProperName (name : String) : Prop where
  /-- It is not empty. -/
  nonempty : name.toList ≠ []
  /-- It is a single name. -/
  unslashed : '/' ∉ name.toList
  /-- It is not the one of the directory itself. -/
  notHere : name ≠ "."
  /-- It is not the one of the parent directory. -/
  notParent : name ≠ ".."

instance (name : String) : Decidable (ProperName name) :=
  decidable_of_iff (name.toList ≠ [] ∧ '/' ∉ name.toList ∧ name ≠ "." ∧ name ≠ "..")
    ⟨fun h => ⟨h.1, h.2.1, h.2.2.1, h.2.2.2⟩,
      fun h => ⟨h.nonempty, h.unslashed, h.notHere, h.notParent⟩⟩

/-- Such a name leads to the entry. -/
theorem ProperName.follow {name : String} (h : ProperName name) (here : Location) :
    Store.follow here name = here ++ [name] := by
  rw [Store.follow, if_neg h.notHere, if_neg h.notParent]

/-- As a path, it starts from the current directory. -/
theorem ProperName.relative {name : String} (h : ProperName name) :
    (⟨name⟩ : Path).isAbsolute = false := by
  rw [Path.isAbsolute, decide_eq_false_iff_not]
  exact fun hhead => h.unslashed (List.mem_of_head? hhead)

namespace Path

variable {p : Path} {cwd : Location} {name : String}

/-- Where the names of a path start if `cwd` is the current directory. -/
def start (cwd : Location) (p : Path) : Location :=
  if p.isAbsolute then [] else cwd

/-- The places that a path leads through before it comes to its goal. -/
def way (cwd : Location) (p : Path) : List Location :=
  Store.passed (p.start cwd) p.stepsToCreate

/-- The place to which a path leads. -/
def goal (cwd : Location) (p : Path) : Location :=
  p.stepsToCreate.foldl Store.follow (p.start cwd)

/-- The places that a path leads through, with its goal. -/
def places (cwd : Location) (p : Path) : List Location :=
  p.way cwd ++ [p.goal cwd]

/-- A slash at the end makes the goal one of the places where a name is looked up. -/
theorem passed_steps (cwd : Location) (p : Path) :
    (Store.passed (p.start cwd) p.steps = p.way cwd ∨
      Store.passed (p.start cwd) p.steps = p.places cwd) ∧
    p.steps.foldl Store.follow (p.start cwd) = p.goal cwd := by
  unfold steps
  split
  · refine ⟨Or.inr ?_, ?_⟩
    · rw [Store.passed_append]
      rfl
    · rw [List.foldl_append]
      rfl
  · exact ⟨Or.inl rfl, rfl⟩

/-- No other places are looked at, whether there is a slash at the end or not. -/
theorem passed_steps_subset (cwd : Location) (p : Path) :
    Store.passed (p.start cwd) p.steps ⊆ p.places cwd := by
  rcases (passed_steps cwd p).1 with h | h
  · rw [h]
    exact List.subset_append_left _ _
  · rw [h]
    exact List.Subset.refl _

/-- How the path of an entry is written: with a slash in between, unless there is one or the path is
empty. -/
theorem text_child (h : ProperName name) (p : Path) :
    (p.text.toList = [] ∧ (p.child name).text.toList = name.toList) ∨
    (∃ before, p.text.toList = before ++ ['/'] ∧
      (p.child name).text.toList = before ++ '/' :: name.toList) ∨
    (p.text.toList ≠ [] ∧ (p.child name).text.toList = p.text.toList ++ '/' :: name.toList) := by
  unfold child join
  rw [h.relative, if_neg nofun]
  rcases List.eq_nil_or_concat p.text.toList with hp | ⟨before, c, hp⟩
  · exact Or.inl ⟨hp, by simp [hp]⟩
  · rw [List.concat_eq_append] at hp
    by_cases hc : c = '/'
    · subst hc
      exact Or.inr (Or.inl ⟨before, hp, by simp [hp]⟩)
    · exact Or.inr (Or.inr ⟨by simp [hp], by simp [hp, hc]⟩)

/-- An entry is reached from the root exactly if its directory is. -/
theorem isAbsolute_child (h : ProperName name) : (p.child name).isAbsolute = p.isAbsolute := by
  have hname : name.toList.head? ≠ some '/' := fun hhead => h.unslashed (List.mem_of_head? hhead)
  unfold isAbsolute
  rcases text_child h p with ⟨hp, hchild⟩ | ⟨before, hp, hchild⟩ | ⟨hp, hchild⟩
  · rw [hp, hchild, decide_eq_decide]
    exact iff_of_false hname nofun
  · rw [hp, hchild]
    cases before <;> rfl
  · obtain ⟨c, rest, hp⟩ := List.exists_cons_of_ne_nil hp
    rw [hchild, hp]
    rfl

theorem start_child (h : ProperName name) : (p.child name).start cwd = p.start cwd := by
  unfold start
  rw [isAbsolute_child h]

/-- The path of an entry has one more name. -/
theorem stepsToCreate_child (h : ProperName name) :
    (p.child name).stepsToCreate = p.stepsToCreate ++ [name] := by
  -- The name is the last piece, and the slash in front of it adds no piece that is kept.
  have hlast : (Text.split '/' name.toList).filter (· ≠ []) = [name.toList] := by
    rw [Text.split_of_not_mem h.unslashed]
    simp [h.nonempty]
  have hname : String.ofList name.toList = name := String.ofList_toList
  unfold stepsToCreate
  rcases text_child h p with ⟨hp, hchild⟩ | ⟨before, hp, hchild⟩ | ⟨hp, hchild⟩
  · rw [hp, hchild, hlast, List.map_singleton, hname]
    rfl
  · have hbefore : Text.split '/' (before ++ ['/']) = Text.split '/' before ++ [[]] :=
      Text.split_append_cons '/' before []
    rw [hp, hchild, hbefore, Text.split_append_cons, List.filter_append, List.filter_append, hlast,
      List.map_append, List.map_append, List.map_singleton, hname]
    simp
  · rw [hchild, Text.split_append_cons, List.filter_append, hlast, List.map_append,
      List.map_singleton, hname]

theorem steps_child (h : ProperName name) : (p.child name).steps = p.stepsToCreate ++ [name] := by
  -- The path does not end with a slash, since the name is not empty and has none.
  have hlast (before : List Char) : (before ++ name.toList).getLast? ≠ some '/' := by
    rw [List.getLast?_append]
    cases hname : name.toList.getLast? with
    | none => exact absurd (List.getLast?_eq_none_iff.mp hname) h.nonempty
    | some c =>
      rintro ⟨rfl⟩
      exact h.unslashed (List.mem_of_getLast? hname)
  have hchildLast : (p.child name).text.toList.getLast? ≠ some '/' := by
    rcases text_child h p with ⟨-, hchild⟩ | ⟨before, -, hchild⟩ | ⟨-, hchild⟩
    · exact hchild ▸ hlast []
    · rw [hchild, List.append_cons]
      exact hlast _
    · rw [hchild, List.append_cons]
      exact hlast _
  rw [steps, stepsToCreate_child h]
  simp [hchildLast]

theorem text_child_ne (h : ProperName name) : (p.child name).text ≠ "" := by
  intro hempty
  rw [← String.toList_eq_nil_iff] at hempty
  rcases text_child h p with ⟨-, hchild⟩ | ⟨before, -, hchild⟩ | ⟨-, hchild⟩
  · exact h.nonempty (hchild.symm.trans hempty)
  · simp [hchild] at hempty
  · simp [hchild] at hempty

theorem goal_child (h : ProperName name) : (p.child name).goal cwd = p.goal cwd ++ [name] := by
  rw [goal, start_child h, stepsToCreate_child h, List.foldl_append]
  exact h.follow _

/-- On the way to an entry there is all that leads to its directory, and the directory. -/
theorem way_child (h : ProperName name) : (p.child name).way cwd = p.places cwd := by
  rw [way, start_child h, stepsToCreate_child h, Store.passed_append]
  rfl

end Path

namespace Store

variable {s t : Store} {p : Path} {l : Location} {name : String}

/-! ## Following paths -/

/-- If a path can be followed, there are directories on its way, and it leads to its goal. -/
theorem locate_eq_ok (h : s.locate p = .ok l) :
    (∀ m ∈ p.way s.current, s.find? m = some .directory) ∧ l = p.goal s.current := by
  unfold locate at h
  split at h
  · cases h
  · obtain ⟨hpassed, hl⟩ := walk_eq_ok_iff.mp h
    obtain ⟨hsteps, hgoal⟩ := Path.passed_steps s.current p
    refine ⟨fun m hm => hpassed m ?_, hl.trans hgoal⟩
    have hsubset : p.way s.current ⊆ Store.passed (p.start s.current) p.steps := by
      rcases hsteps with h | h
      · rw [h]
        exact List.Subset.refl _
      · rw [h]
        exact List.subset_append_left _ _
    exact hsubset hm

/-- Following a path without the slash at its end. -/
theorem walk_of_locate (h : s.locate p = .ok l) :
    s.walk (s.origin p) p.stepsToCreate = .ok l := by
  obtain ⟨hway, hl⟩ := locate_eq_ok h
  exact walk_eq_ok_iff.mpr ⟨hway, hl⟩

/-- Where a path leads only depends on the places that it leads through. -/
theorem locate_congr (hcurrent : s.current = t.current)
    (h : ∀ m ∈ p.places s.current, s.kind? m = t.kind? m) : s.locate p = t.locate p := by
  unfold locate
  have horigin : s.origin p = t.origin p := by
    rw [origin, origin, hcurrent]
  split
  · rfl
  · rw [← horigin]
    exact walk_congr fun m hm => h m (Path.passed_steps_subset _ _ hm)

theorem kind?_congr (h : s.find? l = t.find? l) : s.kind? l = t.kind? l := by
  rw [kind?, kind?, h]

section

variable (hcurrent : s.current = t.current) (hway : ∀ m ∈ p.way s.current, s.kind? m = t.kind? m)
  (hgoal : s.find? (p.goal s.current) = t.find? (p.goal s.current))
include hcurrent hway hgoal

/-- Where a path leads depends on the kinds of what is on the way, and at its goal. -/
theorem locate_congr_of_goal : s.locate p = t.locate p := by
  refine locate_congr hcurrent fun m hm => ?_
  rcases List.mem_append.mp hm with hm | hm
  · exact hway m hm
  · rw [List.mem_singleton.mp hm]
    exact kind?_congr hgoal

/-- What is found at a path depends on the way there and on what its goal holds. -/
theorem entry?_congr : s.entry? p = t.entry? p := by
  unfold entry?
  rw [← locate_congr_of_goal hcurrent hway hgoal]
  cases hs : s.locate p with
  | error e => rfl
  | ok l =>
    obtain ⟨-, rfl⟩ := locate_eq_ok hs
    exact hgoal

/-- So does the text that is read there. -/
theorem readText_congr : s.readText p = t.readText p := by
  unfold readText
  rw [← locate_congr_of_goal hcurrent hway hgoal]
  cases hs : s.locate p with
  | error e => rfl
  | ok l =>
    obtain ⟨-, rfl⟩ := locate_eq_ok hs
    dsimp only
    rw [hgoal]

end

/-! ## Paths that lead to directories -/

/-- A path leads to a directory. -/
structure Reaches (s : Store) (p : Path) (l : Location) : Prop where
  /-- It leads there. -/
  leads : p.goal s.current = l
  /-- It leads through directories, and to one. -/
  directories : ∀ m ∈ p.places s.current, s.find? m = some .directory

namespace Reaches

theorem directory (h : s.Reaches p l) : s.find? l = some .directory :=
  h.directories l (List.mem_append_right _ (List.mem_singleton.mpr h.leads.symm))

/-- It is reached as before wherever all directories on the way are still there. -/
theorem mono (h : s.Reaches p l) (hcurrent : s.current = t.current)
    (hkeep : ∀ m ∈ p.places s.current, s.find? m = some .directory → t.find? m = some .directory) :
    t.Reaches p l := by
  refine ⟨hcurrent ▸ h.leads, ?_⟩
  rw [← hcurrent]
  exact fun m hm => hkeep m hm (h.directories m hm)

/-- Putting something somewhere does not cut off directories, unless it takes the place of one. -/
theorem put (h : s.Reaches p l) {m : Location} {e : Entry} (hm : m ≠ [])
    (hkeep : s.find? m = some .directory → e = .directory) : (s.put m e).Reaches p l := by
  refine h.mono rfl fun k _ hk => ?_
  rw [find?_put hm]
  split
  · rename_i heq
    rw [hkeep (heq ▸ hk)]
  · exact hk

/-- Its path can be followed, also without a slash at its end. -/
theorem walk (h : s.Reaches p l) : s.walk (s.origin p) p.stepsToCreate = .ok l :=
  walk_eq_ok_iff.mpr ⟨fun m hm => h.directories m (List.mem_append_left _ hm), h.leads.symm⟩

/-- Its path leads to it, unless the path is empty, which leads nowhere. -/
theorem locate (h : s.Reaches p l) (hp : p.text ≠ "") : s.locate p = .ok l := by
  rw [Store.locate, if_neg hp]
  refine walk_eq_ok_iff.mpr ⟨fun m hm => h.directories m (Path.passed_steps_subset _ _ hm), ?_⟩
  exact h.leads.symm.trans (Path.passed_steps s.current p).2.symm

/-- The path of an entry can be followed from there, without a slash at its end. -/
theorem walk_child (h : s.Reaches p l) (hname : ProperName name) :
    s.walk (s.origin (p.child name)) (p.child name).stepsToCreate = .ok (l ++ [name]) := by
  rw [walk_eq_ok_iff]
  constructor
  · show ∀ m ∈ (p.child name).way s.current, _
    rw [Path.way_child hname]
    exact h.directories
  · show _ = (p.child name).goal s.current
    rw [Path.goal_child hname, h.leads]

/-- The path of an entry leads to it, whether there is one or not. -/
theorem locate_child (h : s.Reaches p l) (hname : ProperName name) :
    s.locate (p.child name) = .ok (l ++ [name]) := by
  rw [Store.locate, if_neg (Path.text_child_ne hname), Path.steps_child hname,
    ← Path.stepsToCreate_child hname]
  exact h.walk_child hname

/-- Two names further, it depends on what the first one stands for. -/
theorem locate_grandchild (h : s.Reaches p l) {a b : String} (ha : ProperName a)
    (hb : ProperName b) : s.locate ((p.child a).child b) = s.walk l [a, b] := by
  rw [Store.locate, if_neg (Path.text_child_ne hb), Path.steps_child hb, Path.stepsToCreate_child ha,
    List.append_assoc]
  show s.walk (((p.child a).child b).start s.current) _ = _
  rw [Path.start_child hb, Path.start_child ha]
  exact walk_append h.walk

/-- An entry that is a directory is reached by its own path. -/
theorem child (h : s.Reaches p l) (hname : ProperName name)
    (hentry : s.find? (l ++ [name]) = some .directory) : s.Reaches (p.child name) (l ++ [name]) := by
  have hgoal : (p.child name).goal s.current = l ++ [name] := by
    rw [Path.goal_child hname, h.leads]
  refine ⟨hgoal, ?_⟩
  rw [Path.places, Path.way_child hname, hgoal, List.forall_mem_append]
  exact ⟨h.directories, List.forall_mem_singleton.mpr hentry⟩

/-- So is a directory that is created there. -/
theorem newChild (h : s.Reaches p l) (hname : ProperName name) :
    (s.put (l ++ [name]) .directory).Reaches (p.child name) (l ++ [name]) := by
  have hne : l ++ [name] ≠ [] := List.append_ne_nil_of_right_ne_nil l (List.cons_ne_nil name [])
  have hentry : (s.put (l ++ [name]) .directory).find? (l ++ [name]) = some .directory := by
    rw [find?_put hne, if_pos rfl]
  exact (h.put hne fun _ => rfl).child hname hentry

end Reaches

/-- There is a directory at a path exactly if the path reaches its goal. -/
theorem isDirectory_iff : s.isDirectory p = true ↔
    p.text ≠ "" ∧ s.Reaches p (p.goal s.current) := by
  unfold isDirectory entry?
  constructor
  · intro h
    cases hs : s.locate p with
    | error e => simp [hs] at h
    | ok l =>
      obtain ⟨hway, rfl⟩ := locate_eq_ok hs
      have hp : p.text ≠ "" := by
        intro hempty
        rw [locate, if_pos hempty] at hs
        cases hs
      refine ⟨hp, rfl, List.forall_mem_append.mpr ⟨hway, ?_⟩⟩
      rw [hs, decide_eq_true_iff] at h
      exact List.forall_mem_singleton.mpr h
  · rintro ⟨hp, h⟩
    rw [h.locate hp, decide_eq_true_iff]
    exact h.directory

end Store

end DocWeave

/-! ## Actions -/

namespace EStateM.Result

open DocWeave

variable {ε α : Type}

/-- The value or the error of an action. -/
def outcome : EStateM.Result ε Store α → Except ε α
  | .ok a _ => .ok a
  | .error e _ => .error e

/-- The store that an action leaves. -/
def store : EStateM.Result ε Store α → Store
  | .ok _ s => s
  | .error _ s => s

end EStateM.Result

namespace DocWeave

namespace Files

variable {s : Store} {p : Path} {l : Location}

/-- Actions one after the other: the second one is left out if the first one fails. -/
theorem bind_apply {ε α β : Type} (act : Action ε α) (f : α → Action ε β) (s : Store) :
    (act >>= f) s = match act s with
      | .ok a s => f a s
      | .error e s => .error e s := by
  show EStateM.bind act f s = _
  unfold EStateM.bind
  cases act s <;> rfl

/-- Another error is reported, if there is one. -/
theorem mapError_outcome {ε ε' α : Type} (f : ε → ε') (act : Action ε α) (s : Store) :
    (mapError f act s).outcome = (act s).outcome.mapError f := by
  unfold mapError
  cases act s <;> rfl

/-- The store does not tell which error is reported. -/
theorem mapError_store {ε ε' α : Type} (f : ε → ε') (act : Action ε α) (s : Store) :
    (mapError f act s).store = (act s).store := by
  unfold mapError
  cases act s <;> rfl

/-- A directory is created where its path can be followed and nothing is at its goal. -/
theorem createDirectory_eq (p : Path) (s : Store) : createDirectory p s =
    if p.text = "" then .error .notFound s
    else match s.walk (s.origin p) p.stepsToCreate with
      | .error e => .error e s
      | .ok l => match s.find? l with
        | some _ => .error .alreadyExists s
        | none => .ok () (s.put l .directory) := by
  unfold createDirectory
  rw [bind_apply, locateNew]
  by_cases hp : p.text = ""
  · rw [if_pos hp, if_pos hp]
  · rw [if_neg hp, if_neg hp]
    cases s.walk (s.origin p) p.stepsToCreate with
    | error e => rfl
    | ok l =>
      show (match s.find? l with
        | some _ => throw .alreadyExists
        | none => modify (·.put l .directory) : Action SystemError Unit) s = _
      cases hl : s.find? l <;> simp only [hl] <;> rfl

/-- A file is written over a file, or where nothing is. -/
theorem write_eq (p : Path) (contents : ByteArray) (s : Store) : write p contents s =
    match s.locate p with
    | .error e => .error e s
    | .ok l => if s.find? l = some .directory then .error .isDirectory s
      else .ok () (s.put l (.file contents)) := by
  unfold write
  rw [bind_apply, locate]
  cases s.locate p with
  | error e => rfl
  | ok l =>
    show (if s.find? l = some .directory then throw .isDirectory >>= fun _ => _
      else _ : Action SystemError Unit) s = _
    by_cases hl : s.find? l = some .directory
    · simp only [if_pos hl]
      rfl
    · simp only [if_neg hl]
      rfl

end Files

end DocWeave
