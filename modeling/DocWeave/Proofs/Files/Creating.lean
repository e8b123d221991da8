import DocWeave.Proofs.Files.Stores

/-!
# Creating directories

A directory is created together with the directories that its path leads through. Of the store this only
reads and changes what the places of the path hold: some of them become directories that have been
missing.

- `places_of_mem_ancestors`: the ancestors of a path lead through places of this path.
- `Grown`: what creating directories does to a store; `createAll_grown`.
- `createAll_parallel`: what it does depends on the places of the path only.
- `createAll_again`: creating a directory that has been created changes nothing.
-/

namespace DocWeave

namespace Text

/-- The character at which a text is split is in none of its pieces. -/
theorem not_mem_of_mem_split {sep : Char} {s piece : List Char} (h : piece ∈ split sep s) :
    sep ∉ piece := by
  induction s generalizing piece with
  | nil =>
    rw [split, List.mem_singleton] at h
    rw [h]
    exact List.not_mem_nil
  | cons c s ih =>
    rw [split] at h
    split at h
    · rcases List.mem_cons.mp h with rfl | h
      · exact List.not_mem_nil
      · exact ih h
    · rename_i hc
      rcases hs : split sep s with _ | ⟨first, more⟩
      · exact absurd hs (split_ne_nil sep s)
      · rw [hs] at h ih
        rcases List.mem_cons.mp h with rfl | h
        · rw [List.mem_cons, not_or]
          exact ⟨Ne.symm hc, ih List.mem_cons_self⟩
        · exact ih (List.mem_cons_of_mem _ h)

end Text

namespace Path

variable {p q : Path} {cwd : Location}

/-! ## The ancestors of a path -/

/-- The pieces of a written path that are not empty. -/
def pieces (s : List Char) : List (List Char) :=
  (Text.split '/' s).filter (· ≠ [])

theorem stepsToCreate_eq (p : Path) : p.stepsToCreate = (pieces p.text.toList).map String.ofList :=
  rfl

theorem pieces_append_cons (a b : List Char) : pieces (a ++ '/' :: b) = pieces a ++ pieces b := by
  unfold pieces
  rw [Text.split_append_cons, List.filter_append]

/-- Joined by slashes, pieces are found again, but for empty ones. -/
theorem pieces_intercalate : ∀ {kept : List (List Char)}, (∀ piece ∈ kept, '/' ∉ piece) →
    pieces (['/'].intercalate kept) = kept.filter (· ≠ [])
  | [], _ => rfl
  | [piece], h => by
    have hpiece : '/' ∉ piece := h piece List.mem_cons_self
    rw [List.intercalate_singleton]
    unfold pieces
    rw [Text.split_of_not_mem hpiece]
  | piece :: next :: kept, h => by
    have hpiece : '/' ∉ piece := h piece List.mem_cons_self
    have hmore := pieces_intercalate fun q hq => h q (List.mem_cons_of_mem piece hq)
    rw [List.intercalate_cons_of_ne_nil (List.cons_ne_nil next kept), List.append_assoc,
      List.singleton_append, pieces_append_cons, hmore]
    unfold pieces
    rw [Text.split_of_not_mem hpiece, ← List.filter_append]
    rfl

/-- A path without its last name has only some of the pieces behind the anchor, if it is not empty. -/
theorem text_of_parent? (h : p.parent? = some q) :
    q.text.toList = [] ∧ (splitAnchor p.text.toList).1 = ['.'] ∨
    ∃ kept, kept <+: Text.split '/' (splitAnchor p.text.toList).2 ∧
      q.text.toList = (splitAnchor p.text.toList).1 ++ ['/'].intercalate kept := by
  unfold parent? at h
  dsimp only at h
  split at h
  · rename_i piece rest hpieces
    cases h
    refine Or.inr ⟨(rest.dropWhile (!isName ·)).reverse, ?_, String.toList_ofList⟩
    -- Pieces are dropped at the end: those that are no names, the last name, and those before it that
    -- are no names.
    have hsuffix : piece :: rest <:+ (Text.split '/' (splitAnchor p.text.toList).2).reverse :=
      hpieces ▸ List.dropWhile_suffix _
    have hrest : rest.dropWhile (!isName ·) <:+ (Text.split '/' (splitAnchor p.text.toList).2).reverse :=
      (List.dropWhile_suffix _).trans ((List.suffix_cons piece rest).trans hsuffix)
    rwa [← List.reverse_prefix, List.reverse_reverse] at hrest
  · split at h
    · rename_i hanchor
      cases h
      exact Or.inl ⟨rfl, hanchor⟩
    · cases h

/-- What stands before the names of a path, and what is left. -/
theorem splitAnchor_cases (s : List Char) :
    (∃ rest, s = '/' :: rest ∧ splitAnchor s = (['/'], rest)) ∨
    (s = ['.'] ∧ splitAnchor s = (['.'], [])) ∨
    (∃ rest, s = '.' :: '/' :: rest ∧ splitAnchor s = (['.'], '/' :: rest)) ∨
    (s.head? ≠ some '/' ∧ splitAnchor s = ([], s)) := by
  unfold splitAnchor
  split
  · exact Or.inl ⟨_, rfl, rfl⟩
  · exact Or.inr (Or.inl ⟨rfl, rfl⟩)
  · exact Or.inr (Or.inr (Or.inl ⟨_, rfl, rfl⟩))
  · rename_i hslash _ _
    refine Or.inr (Or.inr (Or.inr ⟨fun hhead => ?_, rfl⟩))
    obtain ⟨rest, rfl⟩ := List.head?_eq_some_iff.mp hhead
    exact hslash rest rfl

/-- Joined pieces start with a slash only if the text does from which they were taken. -/
theorem head?_intercalate {kept : List (List Char)} {s : List Char}
    (hkept : kept <+: Text.split '/' s) (hs : s.head? ≠ some '/') :
    (['/'].intercalate kept).head? ≠ some '/' := by
  cases s with
  | nil =>
    cases kept with
    | nil => nofun
    | cons first kept =>
      obtain ⟨rfl, hnil⟩ := List.cons_prefix_cons.mp hkept
      rw [List.prefix_nil.mp hnil]
      nofun
  | cons c s =>
    have hc : c ≠ '/' := fun hc => hs (congrArg some hc)
    rcases hsplit : Text.split '/' s with _ | ⟨piece, more⟩
    · exact absurd hsplit (Text.split_ne_nil '/' s)
    · rw [Text.split, if_neg hc, hsplit] at hkept
      cases kept with
      | nil => nofun
      | cons first kept =>
        obtain ⟨rfl, -⟩ := List.cons_prefix_cons.mp hkept
        cases kept with
        | nil => simpa using hc
        | cons second kept =>
          rw [List.intercalate_cons_of_ne_nil (List.cons_ne_nil second kept)]
          simpa using hc

/-- The first pieces of a text, joined, have the first of its pieces that are not empty. -/
theorem pieces_intercalate_onto {kept : List (List Char)} {s : List Char}
    (hkept : kept <+: Text.split '/' s) : pieces (['/'].intercalate kept) <+: pieces s := by
  rw [pieces_intercalate fun piece hpiece => Text.not_mem_of_mem_split (hkept.subset hpiece)]
  exact hkept.filter _

/-- Of a text that starts with a slash, the first pieces joined start with it, if there are two. -/
theorem intercalate_of_slash {kept : List (List Char)} {rest : List Char}
    (hkept : kept <+: Text.split '/' ('/' :: rest)) :
    ['/'].intercalate kept = [] ∨ ∃ more, more <+: Text.split '/' rest ∧
      ['/'].intercalate kept = '/' :: ['/'].intercalate more := by
  cases kept with
  | nil => exact Or.inl rfl
  | cons first kept =>
    obtain ⟨rfl, hmore⟩ := List.cons_prefix_cons.mp hkept
    cases kept with
    | nil => exact Or.inl rfl
    | cons second kept =>
      refine Or.inr ⟨second :: kept, hmore, ?_⟩
      rw [List.intercalate_cons_of_ne_nil (List.cons_ne_nil second kept)]
      rfl

/-- A text without its last pieces starts with a slash if the text does, and has the first of its
pieces that are not empty. -/
theorem pieces_splitAnchor_kept {kept : List (List Char)} {s : List Char}
    (hkept : kept <+: Text.split '/' (splitAnchor s).2) :
    (((splitAnchor s).1 ++ ['/'].intercalate kept).head? = some '/' ↔ s.head? = some '/') ∧
      pieces ((splitAnchor s).1 ++ ['/'].intercalate kept) <+: pieces s := by
  rcases splitAnchor_cases s with ⟨rest, rfl, heq⟩ | ⟨rfl, heq⟩ | ⟨rest, rfl, heq⟩ | ⟨hhead, heq⟩
  · rw [heq] at hkept ⊢
    -- The slash in front adds an empty piece, which does not count.
    have hslash (x : List Char) : pieces ('/' :: x) = pieces x := pieces_append_cons [] x
    rw [List.singleton_append, hslash, hslash]
    exact ⟨iff_of_true rfl rfl, pieces_intercalate_onto hkept⟩
  · rw [heq] at hkept ⊢
    have hnone : ['/'].intercalate kept = [] := by
      cases kept with
      | nil => rfl
      | cons first kept =>
        obtain ⟨rfl, hnil⟩ := List.cons_prefix_cons.mp hkept
        rw [List.prefix_nil.mp hnil]
        rfl
    rw [hnone]
    exact ⟨Iff.rfl, List.prefix_refl _⟩
  · rw [heq] at hkept ⊢
    have hdot (x : List Char) : pieces ('.' :: '/' :: x) = pieces ['.'] ++ pieces x :=
      pieces_append_cons ['.'] x
    -- Either only the dot is left, or a dot and a slash.
    rcases intercalate_of_slash hkept with hnone | ⟨more, hmore, hsome⟩
    · rw [hnone, hdot]
      exact ⟨by simp, List.prefix_append _ _⟩
    · rw [hsome, List.singleton_append, hdot, hdot]
      exact ⟨by simp, (List.prefix_append_right_inj _).mpr (pieces_intercalate_onto hmore)⟩
  · rw [heq] at hkept ⊢
    exact ⟨iff_of_false (head?_intercalate hkept hhead) hhead, pieces_intercalate_onto hkept⟩

/-- The path without its last name starts where the path does, and has the first of its names. -/
theorem stepsToCreate_of_parent? (h : p.parent? = some q) :
    q.start cwd = p.start cwd ∧ q.stepsToCreate <+: p.stepsToCreate := by
  have hgoal : (q.text.toList.head? = some '/' ↔ p.text.toList.head? = some '/') ∧
      pieces q.text.toList <+: pieces p.text.toList := by
    rcases text_of_parent? h with ⟨hq, hanchor⟩ | ⟨kept, hkept, hq⟩
    · -- Nothing is left of a path that starts with a dot, so it has not started with a slash.
      have hhead : p.text.toList.head? ≠ some '/' := by
        intro hslash
        obtain ⟨rest, hp⟩ := List.head?_eq_some_iff.mp hslash
        rw [hp] at hanchor
        cases hanchor
      rw [hq]
      exact ⟨iff_of_false nofun hhead, List.nil_prefix⟩
    · rw [hq]
      exact pieces_splitAnchor_kept hkept
  refine ⟨?_, ?_⟩
  · unfold start isAbsolute
    simp only [hgoal.1]
  · rw [stepsToCreate_eq, stepsToCreate_eq]
    exact hgoal.2.map _

/-- Of pieces without a name, those that are not empty are single dots. -/
theorem eq_dot_of_not_isName {all : List (List Char)} (hall : ∀ piece ∈ all, isName piece = false)
    {step : String} (hstep : step ∈ (all.filter (· ≠ [])).map String.ofList) : step = "." := by
  obtain ⟨piece, hpiece, rfl⟩ := List.mem_map.mp hstep
  obtain ⟨hmem, hne⟩ := List.mem_filter.mp hpiece
  have hdot : piece = ['.'] := by
    simpa [isName, of_decide_eq_true hne] using hall piece hmem
  rw [hdot]

/-- A path that goes on leads through more places. -/
theorem places_subset_of_prefix (hstart : q.start cwd = p.start cwd)
    (hsteps : q.stepsToCreate <+: p.stepsToCreate) : q.places cwd ⊆ p.places cwd := by
  obtain ⟨rest, hrest⟩ := hsteps
  unfold places way goal
  rw [hstart, ← hrest, Store.passed_append, List.foldl_append]
  cases rest with
  | nil => simp [Store.passed]
  | cons name rest =>
    rw [Store.passed]
    intro m hm
    simp only [List.mem_append, List.mem_cons] at hm ⊢
    tauto

/-- The ancestors of a path start where the path does, and have the first of its names. -/
theorem stepsToCreate_of_mem_ancestors (h : q ∈ p.ancestors) :
    q.start cwd = p.start cwd ∧ q.stepsToCreate <+: p.stepsToCreate := by
  -- By induction on the steps up: each takes some names from the end.
  have hgo : ∀ {fuel : Nat} {p : Path}, q ∈ ancestors.go fuel p →
      q.start cwd = p.start cwd ∧ q.stepsToCreate <+: p.stepsToCreate := by
    intro fuel
    induction fuel with
    | zero =>
      intro p h
      rw [ancestors.go, List.mem_singleton] at h
      rw [h]
      exact ⟨rfl, List.prefix_refl _⟩
    | succ fuel ih =>
      intro p h
      rw [ancestors.go] at h
      split at h
      · rename_i parent hparent
        rcases List.mem_cons.mp h with rfl | h
        · exact ⟨rfl, List.prefix_refl _⟩
        · obtain ⟨hstart, hsteps⟩ := stepsToCreate_of_parent? hparent
          obtain ⟨hq, hqsteps⟩ := ih h
          exact ⟨hq.trans hstart, hqsteps.trans hsteps⟩
      · rw [List.mem_singleton.mp h]
        exact ⟨rfl, List.prefix_refl _⟩
  exact hgo h

/-- The ancestors of a path lead through places that the path leads through as well. -/
theorem places_of_mem_ancestors (h : q ∈ p.ancestors) : q.places cwd ⊆ p.places cwd := by
  obtain ⟨hstart, hsteps⟩ := stepsToCreate_of_mem_ancestors h
  exact places_subset_of_prefix hstart hsteps

/-- A path is the first of its ancestors. -/
theorem ancestors_eq_cons (p : Path) : ∃ parents, p.ancestors = p :: parents := by
  unfold ancestors
  cases p.text.length with
  | zero => exact ⟨[], rfl⟩
  | succ fuel =>
    rw [ancestors.go]
    split
    · exact ⟨_, rfl⟩
    · exact ⟨[], rfl⟩

/-- A path without names is the root. -/
theorem start_of_no_steps (htext : p.text ≠ "") (h : p.stepsToCreate = []) : p.start cwd = [] := by
  have habsolute : p.isAbsolute = true := by
    unfold isAbsolute
    rcases hp : p.text.toList with _ | ⟨c, rest⟩
    · exact absurd (String.toList_eq_nil_iff.mp hp) htext
    · by_cases hc : c = '/'
      · rw [hc]
        rfl
      · rw [stepsToCreate_eq, List.map_eq_nil_iff, pieces, hp, Text.split, if_neg hc] at h
        rcases hs : Text.split '/' rest with _ | ⟨piece, more⟩
        · exact absurd hs (Text.split_ne_nil '/' rest)
        · rw [hs] at h
          simp at h
  rw [start, habsolute, if_pos rfl]

end Path

namespace Store

variable {A B : List Location} {s s' s'' t : Store} {p : Path} {l : Location}

/-! ## Stores in which directories have been created -/

/-- Two stores agree about some places. -/
structure AgreeOn (A : List Location) (s t : Store) : Prop where
  current : s.current = t.current
  find? : ∀ m ∈ A, s.find? m = t.find? m

/-- A store has become another one: among some places, missing ones have become directories. -/
structure Grown (A : List Location) (s s' : Store) : Prop where
  current : s'.current = s.current
  find? : ∀ m, s'.find? m = s.find? m ∨
    m ∈ A ∧ s.find? m = none ∧ s'.find? m = some .directory
  closed : s.Closed → s'.Closed

namespace Grown

theorem refl (A : List Location) (s : Store) : Grown A s s :=
  ⟨rfl, fun _ => Or.inl rfl, id⟩

theorem trans (h : Grown A s s') (h' : Grown A s' s'') : Grown A s s'' := by
  refine ⟨h'.current.trans h.current, fun m => ?_, h'.closed ∘ h.closed⟩
  rcases h.find? m with hm | ⟨hA, hnone, hm⟩
  · rcases h'.find? m with hm' | ⟨hA, hnone, hm'⟩
    · exact Or.inl (hm'.trans hm)
    · exact Or.inr ⟨hA, hm.symm.trans hnone, hm'⟩
  · rcases h'.find? m with hm' | ⟨-, hnone', -⟩
    · exact Or.inr ⟨hA, hnone, hm'.trans hm⟩
    · rw [hm] at hnone'
      cases hnone'

theorem mono (h : Grown A s s') (hB : A ⊆ B) : Grown B s s' :=
  ⟨h.current, fun m => (h.find? m).imp_right fun hm => ⟨hB hm.1, hm.2⟩, h.closed⟩

/-- What is there stays. -/
theorem keep (h : Grown A s s') {e : Entry} (hl : s.find? l = some e) : s'.find? l = some e := by
  rcases h.find? l with hm | ⟨-, hnone, -⟩
  · exact hm.trans hl
  · rw [hl] at hnone
    cases hnone

/-- Elsewhere nothing changes. -/
theorem elsewhere (h : Grown A s s') (hl : l ∉ A) : s'.find? l = s.find? l :=
  (h.find? l).resolve_right fun hm => hl hm.1

end Grown

/-- Where something can be created, there is a directory in front of it. -/
theorem Closed.parent_of_walk (h : s.Closed) (htext : p.text ≠ "")
    (hwalk : s.walk (s.origin p) p.stepsToCreate = .ok l) (hl : s.find? l = none) :
    s.find? l.dropLast = some .directory := by
  obtain ⟨hpassed, rfl⟩ := walk_eq_ok_iff.mp hwalk
  rcases List.eq_nil_or_concat p.stepsToCreate with hnil | ⟨names, name, hnames⟩
  · have hstart : s.origin p = [] := Path.start_of_no_steps htext hnil
    rw [hnil, List.foldl_nil, hstart, find?_nil] at hl
    cases hl
  · rw [hnames, List.concat_eq_append, passed_append, List.forall_mem_append] at hpassed
    rw [hnames, List.concat_eq_append, List.foldl_append, List.foldl_cons, List.foldl_nil] at hl ⊢
    have hhere : s.find? (names.foldl follow (s.origin p)) = some .directory :=
      hpassed.2 _ List.mem_cons_self
    -- Two dots lead to a directory in front, which is there, so the last name is a proper one.
    generalize names.foldl follow (s.origin p) = here at hl hhere ⊢
    unfold follow at hl ⊢
    split at hl
    · rw [hhere] at hl
      cases hl
    · split at hl
      · rw [h _ (by rw [hhere]; nofun)] at hl
        cases hl
      · rename_i hdot hdots
        rw [if_neg hdot, if_neg hdots, List.dropLast_concat]
        exact hhere

end Store

namespace Files

open Store

variable {A : List Location} {s t : Store} {p : Path} {l : Location}

/-- Two runs of an action end alike, as far as some places are concerned. -/
structure Parallel {ε α : Type} (A : List Location) (r r' : EStateM.Result ε Store α) : Prop where
  outcome : r.outcome = r'.outcome
  store : AgreeOn A r.store r'.store

theorem Parallel.mapError {ε ε' α : Type} {act : Action ε α} {s t : Store}
    (h : Parallel A (act s) (act t)) (f : ε → ε') :
    Parallel A (mapError f act s) (mapError f act t) := by
  refine ⟨?_, ?_⟩
  · rw [mapError_outcome, mapError_outcome, h.outcome]
  · rw [mapError_store, mapError_store]
    exact h.store

/-- If the first actions end alike, the second ones start with the same result in stores that agree. -/
theorem Parallel.bind {ε α β : Type} {act : Action ε α} {f : α → Action ε β} {s t : Store}
    (h : Parallel A (act s) (act t))
    (hf : ∀ a s' t', act s = .ok a s' → AgreeOn A s' t' → Parallel A (f a s') (f a t')) :
    Parallel A ((act >>= f) s) ((act >>= f) t) := by
  obtain ⟨houtcome, hstore⟩ := h
  rw [bind_apply, bind_apply]
  cases hs : act s with
  | ok a s' =>
    cases ht : act t with
    | ok a' t' =>
      rw [hs, ht] at houtcome hstore
      obtain rfl := Except.ok.inj houtcome
      exact hf a s' t' hs hstore
    | error e t' =>
      rw [hs, ht] at houtcome
      cases houtcome
  | error e s' =>
    cases ht : act t with
    | ok a t' =>
      rw [hs, ht] at houtcome
      cases houtcome
    | error e' t' =>
      rw [hs, ht] at houtcome hstore
      obtain rfl := Except.error.inj houtcome
      exact ⟨rfl, hstore⟩

theorem grown_bind {ε α β : Type} {act : Action ε α} {f : α → Action ε β} {s : Store}
    (h : Grown A s (act s).store) (hf : ∀ a s', act s = .ok a s' → Grown A s' (f a s').store) :
    Grown A s ((act >>= f) s).store := by
  rw [bind_apply]
  cases hs : act s with
  | ok a s' =>
    rw [hs] at h
    exact h.trans (hf a s' hs)
  | error e s' =>
    rw [hs] at h
    exact h

/-- One directory more, at a place of the path. -/
theorem createDirectory_grown (hA : p.places s.current ⊆ A) :
    Grown A s (createDirectory p s).store := by
  rw [createDirectory_eq]
  split
  · exact Grown.refl A s
  · rename_i htext
    cases hwalk : s.walk (s.origin p) p.stepsToCreate with
    | error e => exact Grown.refl A s
    | ok l =>
      dsimp only
      cases hl : s.find? l with
      | some e => exact Grown.refl A s
      | none =>
        have hne : l ≠ [] := ne_nil_of_free hl
        refine ⟨rfl, fun m => ?_, fun hclosed => ?_⟩
        · show (s.put l .directory).find? m = _ ∨ _ ∧ _ ∧ (s.put l .directory).find? m = _
          rw [find?_put hne]
          by_cases hm : m = l
          · obtain ⟨-, hgoal⟩ := walk_eq_ok_iff.mp hwalk
            have hmem : l ∈ p.places s.current :=
              List.mem_append_right _ (List.mem_singleton.mpr hgoal)
            rw [if_pos hm, hm]
            exact Or.inr ⟨hA hmem, hl, rfl⟩
          · rw [if_neg hm]
            exact Or.inl rfl
        · -- The path has led to the place, so its parent is there.
          have hparent := hclosed.parent_of_walk htext hwalk hl
          exact hclosed.put hne hparent fun _ => rfl

theorem createDirectory_parallel (h : AgreeOn A s t) (hA : p.places s.current ⊆ A) :
    Parallel A (createDirectory p s) (createDirectory p t) := by
  have horigin : t.origin p = s.origin p := by
    rw [origin, origin, h.current]
  have hwalk : t.walk (s.origin p) p.stepsToCreate = s.walk (s.origin p) p.stepsToCreate := by
    refine walk_congr fun m hm => kind?_congr (h.find? m (hA ?_)).symm
    exact List.mem_append_left _ hm
  rw [createDirectory_eq, createDirectory_eq, horigin, hwalk]
  split
  · exact ⟨rfl, h⟩
  · cases hs : s.walk (s.origin p) p.stepsToCreate with
    | error e => exact ⟨rfl, h⟩
    | ok l =>
      obtain ⟨-, hgoal⟩ := walk_eq_ok_iff.mp hs
      have hmem : l ∈ p.places s.current := List.mem_append_right _ (List.mem_singleton.mpr hgoal)
      have hl := h.find? l (hA hmem)
      dsimp only
      rw [← hl]
      cases hfound : s.find? l with
      | some e => exact ⟨rfl, h⟩
      | none =>
        have hne : l ≠ [] := ne_nil_of_free hfound
        refine ⟨rfl, h.current, fun m hm => ?_⟩
        show (s.put l .directory).find? m = (t.put l .directory).find? m
        rw [find?_put hne, find?_put hne, h.find? m hm]

/-! ## Directories with those on the way to them -/

/-- Whether a path leads to a directory depends on its places. -/
theorem isDirectory_agree (h : AgreeOn A s t) (hA : p.places s.current ⊆ A) :
    s.isDirectory p = t.isDirectory p := by
  have hentry : s.entry? p = t.entry? p := by
    refine entry?_congr h.current (fun m hm => ?_) ?_
    · exact kind?_congr (h.find? m (hA (List.mem_append_left _ hm)))
    · exact h.find? _ (hA (List.mem_append_right _ (List.mem_singleton_self _)))
  rw [isDirectory, isDirectory, hentry]

/-- A directory, and whether there is one already if it cannot be created. -/
def createOrFind (p : Path) : Action SystemError Unit := fun s =>
  createChain.orDirectory p (createDirectory p s)

theorem createOrFind_store (p : Path) (s : Store) :
    (createOrFind p s).store = (createDirectory p s).store := by
  unfold createOrFind createChain.orDirectory
  split
  · rename_i heq
    rw [heq]
  · rename_i heq
    rw [heq]
    split <;> rfl

theorem createOrFind_parallel (h : AgreeOn A s t) (hA : p.places s.current ⊆ A) :
    Parallel A (createOrFind p s) (createOrFind p t) := by
  obtain ⟨houtcome, hstore⟩ := createDirectory_parallel h hA
  have hcurrent := (createDirectory_grown hA).current
  unfold createOrFind
  cases hs : createDirectory p s with
  | ok _ s' =>
    cases ht : createDirectory p t with
    | ok _ t' =>
      rw [hs, ht] at hstore
      exact ⟨rfl, hstore⟩
    | error e t' =>
      rw [hs, ht] at houtcome
      cases houtcome
  | error e s' =>
    cases ht : createDirectory p t with
    | ok _ t' =>
      rw [hs, ht] at houtcome
      cases houtcome
    | error e' t' =>
      rw [hs, ht] at houtcome hstore
      rw [hs] at hcurrent
      obtain rfl := Except.error.inj houtcome
      have hdirectory : s'.isDirectory p = t'.isDirectory p :=
        isDirectory_agree hstore (by rwa [show s'.current = s.current from hcurrent])
      unfold createChain.orDirectory
      dsimp only
      rw [hdirectory]
      split
      · exact ⟨rfl, hstore⟩
      · exact ⟨rfl, hstore⟩

/-- If a directory cannot be created, nothing has changed. -/
theorem store_of_createDirectory_error {e : SystemError}
    (h : (createDirectory p s).outcome = .error e) : createDirectory p s = .error e s := by
  rw [createDirectory_eq] at h ⊢
  split at h
  · cases h
    rw [if_pos ‹_›]
  · rw [if_neg ‹_›]
    cases hwalk : s.walk (s.origin p) p.stepsToCreate with
    | error e' =>
      rw [hwalk] at h
      cases h
      rfl
    | ok l =>
      rw [hwalk] at h
      dsimp only at h ⊢
      cases hl : s.find? l with
      | some _ =>
        rw [hl] at h
        cases h
        rfl
      | none =>
        rw [hl] at h
        cases h

/-- A directory whose parent is missing is created after its parent. -/
theorem createChain_cons (p : Path) (parents : List Path) (s : Store) :
    createChain (p :: parents) s =
      if p.text = "" then .ok () s
      else if (createDirectory p s).outcome = .error .notFound then
        (createChain parents >>= fun _ => createOrFind p) s
      else createOrFind p s := by
  rw [createChain]
  beta_reduce
  by_cases htext : p.text = ""
  · rw [if_pos htext, if_pos htext]
  · rw [if_neg htext, if_neg htext]
    by_cases hmissing : (createDirectory p s).outcome = .error .notFound
    · rw [if_pos hmissing, bind_apply, store_of_createDirectory_error hmissing]
      dsimp only
      cases createChain parents s <;> rfl
    · rw [if_neg hmissing]
      unfold createOrFind
      cases hs : createDirectory p s with
      | ok _ s' => rfl
      | error e s' =>
        rw [hs] at hmissing
        cases e with
        | notFound => exact absurd rfl hmissing
        | _ => rfl

variable {chain : List Path}

/-- All directories are created at places of the paths. -/
theorem createChain_grown : ∀ {s : Store},
    (∀ p ∈ chain, p.places s.current ⊆ A) → Grown A s (createChain chain s).store := by
  induction chain with
  | nil => exact fun _ => Grown.refl A _
  | cons p parents ih =>
    intro s hA
    obtain ⟨hp, hparents⟩ := List.forall_mem_cons.mp hA
    -- The parents do not change what the path of the directory means.
    have hone {s' : Store} (hcurrent : s'.current = s.current) :
        Grown A s' (createOrFind p s').store := by
      rw [createOrFind_store]
      exact createDirectory_grown (hcurrent ▸ hp)
    rw [createChain_cons]
    split
    · exact Grown.refl A s
    · split
      · have hmore := ih hparents
        refine grown_bind hmore fun _ s' hs' => hone ?_
        rw [hs'] at hmore
        exact hmore.current
      · exact hone rfl

theorem createChain_parallel : ∀ {s t : Store}, AgreeOn A s t →
    (∀ p ∈ chain, p.places s.current ⊆ A) →
      Parallel A (createChain chain s) (createChain chain t) := by
  induction chain with
  | nil => exact fun h _ => ⟨rfl, h⟩
  | cons p parents ih =>
    intro s t h hA
    obtain ⟨hp, hparents⟩ := List.forall_mem_cons.mp hA
    have hone := (createDirectory_parallel h hp).outcome
    rw [createChain_cons, createChain_cons, ← hone]
    split
    · exact ⟨rfl, h⟩
    · split
      · refine Parallel.bind (ih h hparents) fun _ s' t' hs' h' => createOrFind_parallel h' ?_
        have hmore := (createChain_grown hparents).current
        rw [hs'] at hmore
        exact hmore ▸ hp
      · exact createOrFind_parallel h hp

/-- Creating a directory changes places that its path leads through, and no others. -/
theorem createAll_grown (p : Path) (s : Store) :
    Grown (p.places s.current) s (createAll p s).store :=
  createChain_grown fun _ hq => Path.places_of_mem_ancestors hq

/-- What becomes of creating a directory depends on the places that its path leads through. -/
theorem createAll_parallel (h : AgreeOn A s t) (hA : p.places s.current ⊆ A) :
    Parallel A (createAll p s) (createAll p t) :=
  createChain_parallel h fun _ hq =>
    List.Subset.trans (Path.places_of_mem_ancestors hq) hA

/-- Behind a new directory, its path leads to it. -/
theorem isDirectory_of_createDirectory {s' : Store} (h : createDirectory p s = .ok () s') :
    s'.isDirectory p = true := by
  rw [createDirectory_eq] at h
  split at h
  · cases h
  · rename_i htext
    cases hwalk : s.walk (s.origin p) p.stepsToCreate with
    | error e =>
      rw [hwalk] at h
      cases h
    | ok l =>
      -- The way stays, as its directories were there before.
      obtain ⟨hway, hgoal⟩ := walk_eq_ok_iff.mp hwalk
      rw [hwalk] at h
      dsimp only at h
      cases hl : s.find? l with
      | some _ =>
        rw [hl] at h
        cases h
      | none =>
        rw [hl] at h
        cases h
        have hne : l ≠ [] := ne_nil_of_free hl
        refine isDirectory_iff.mpr ⟨htext, rfl, List.forall_mem_append.mpr ⟨fun m hm => ?_, ?_⟩⟩
        · rw [find?_put hne, hway m hm, ite_self]
        · have hgoal : p.goal s.current = l := hgoal.symm
          refine List.forall_mem_singleton.mpr ?_
          rw [current_put, find?_put hne, if_pos hgoal]

theorem isDirectory_of_createOrFind {s' : Store} (h : createOrFind p s = .ok () s') :
    s'.isDirectory p = true := by
  unfold createOrFind at h
  cases hs : createDirectory p s with
  | ok _ s₁ =>
    rw [hs] at h
    cases h
    exact isDirectory_of_createDirectory hs
  | error e s₁ =>
    rw [hs] at h
    unfold createChain.orDirectory at h
    dsimp only at h
    split at h
    · cases h
      assumption
    · cases h

/-- A directory that could be created is there. -/
theorem isDirectory_of_createAll {s' : Store} (h : createAll p s = .ok () s')
    (htext : p.text ≠ "") : s'.isDirectory p = true := by
  obtain ⟨parents, hancestors⟩ := Path.ancestors_eq_cons p
  unfold createAll at h
  rw [hancestors, createChain_cons, if_neg htext] at h
  split at h
  · rw [bind_apply] at h
    cases hs : createChain parents s with
    | ok _ s₁ =>
      rw [hs] at h
      exact isDirectory_of_createOrFind h
    | error e s₁ =>
      rw [hs] at h
      cases h
  · exact isDirectory_of_createOrFind h

/-- Creating a directory that is there changes nothing. -/
theorem createAll_of_isDirectory (h : p.text ≠ "" → s.isDirectory p = true) :
    createAll p s = .ok () s := by
  obtain ⟨parents, hancestors⟩ := Path.ancestors_eq_cons p
  unfold createAll
  rw [hancestors, createChain_cons]
  split
  · rfl
  · rename_i htext
    have hthere := (isDirectory_iff.mp (h htext)).2
    have hone : createDirectory p s = .error .alreadyExists s := by
      rw [createDirectory_eq, if_neg htext, hthere.walk]
      dsimp only
      rw [hthere.directory]
    rw [hone, if_neg nofun, createOrFind, hone, createChain.orDirectory, h htext]
    rfl

/-- Creating a directory that has just been created changes nothing. -/
theorem createAll_again {s' : Store} (h : createAll p s = .ok () s') :
    createAll p s' = .ok () s' :=
  createAll_of_isDirectory (isDirectory_of_createAll h)

end Files

end DocWeave
