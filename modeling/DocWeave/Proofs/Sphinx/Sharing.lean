import DocWeave.Proofs.Sphinx.Confined

/-!
# Builds in files that others use as well

While a document is built, other builds come and go, and other documents are written. As long as they
keep to the places for working directories and to files of their own, what comes of the build is what
would have come of it at the start.

- `Builder.opened`: the files once the directory for working directories is there.
- `Builder.Workplace`: the places for working directories.
- `Builder.Shares`: what is assumed about the files at the start.
- `Builder.Keeps`: the files at some time during such builds.
- `buildWith_keeps`: a build keeps this up, and what comes of it does not depend on the time.
-/

namespace DocWeave.Sphinx.Builder

open Page
open Store (AgreeOn Grown)

variable {b : Builder} {s r t : Store} {W : Location → ByteArray → Prop} {c : Naming} {d : Document}
  {m : Location}

/-! ## Places for working directories -/

/-- The files once the directory for working directories has been created, as far as it can be. -/
def opened (b : Builder) (s : Store) : Store :=
  (openRoot b.workRoot? s).store

/-- A place at or below a working directory that a build could create. -/
def Workplace (b : Builder) (s : Store) (m : Location) : Prop :=
  ∃ s₁, openRoot b.workRoot? s = .ok () s₁ ∧ b.InWorkdir s₁ m

theorem opened_grown (b : Builder) (s : Store) : Grown (b.rootPlaces s) s (b.opened s) :=
  b.openRoot_grown s

theorem opened_eq {s₁ : Store} (h : openRoot b.workRoot? s = .ok () s₁) : b.opened s = s₁ := by
  rw [opened, h]
  rfl

theorem rootPlaces_congr (h : t.current = s.current) : b.rootPlaces t = b.rootPlaces s := by
  rw [rootPlaces, rootPlaces, absolute_congr h, h]

theorem not_inWorkdir_of_find? (hs : s.Closed) (hm : s.find? m ≠ none) : ¬ b.InWorkdir s m := by
  rintro ⟨l, n, -, hfree, hbelow⟩
  exact hm (hs.nothing_below hfree hbelow)

/-- What is there at the start is in none of these places. -/
theorem not_workplace_of_find? (hs : s.Closed) {e : Entry} (hm : s.find? m = some e) :
    ¬ b.Workplace s m := by
  rintro ⟨s₁, hopen, hin⟩
  have hgrown := b.opened_grown s
  rw [opened_eq hopen] at hgrown
  have hkeep := hgrown.keep hm
  exact not_inWorkdir_of_find? (hgrown.closed hs) (by rw [hkeep]; nofun) hin

/-- The way to working directories does not lead through them. -/
theorem not_workplace_of_mem_rootPlaces (hs : s.Closed)
    (hcurrent : s.find? s.current = some .directory) (hm : m ∈ b.rootPlaces s) :
    ¬ b.Workplace s m := by
  rintro ⟨s₁, hopen, hin⟩
  have hgrown := b.opened_grown s
  rw [opened_eq hopen] at hgrown
  have hdirectory : s₁.find? m = some .directory := by
    rcases List.mem_append.mp hm with hm | hm
    · unfold openRoot at hopen
      cases hroot : b.workRoot? with
      | none =>
        rw [hroot] at hm
        exact absurd hm List.not_mem_nil
      | some root =>
        rw [hroot] at hm hopen
        have hcreate : Files.createAll root s = .ok () s₁ := by
          unfold Files.mapError at hopen
          dsimp only at hopen
          split at hopen
          · cases hopen
            assumption
          · cases hopen
        by_cases htext : root.text = ""
        · -- The empty path leads through the current directory and nothing else.
          have hplaces : root.places s.current = [s.current] := by
            obtain ⟨text⟩ := root
            obtain rfl : text = "" := htext
            rfl
          change m ∈ root.places s.current at hm
          rw [hplaces, List.mem_singleton] at hm
          rw [hm]
          exact hgrown.keep hcurrent
        · have hthere := Store.isDirectory_iff.mp (Files.isDirectory_of_createAll hcreate htext)
          exact hthere.2.directories m (by rw [hgrown.current]; exact hm)
    · obtain ⟨l, n, hreaches, -⟩ := hin
      refine hreaches.directories m ?_
      rw [absolute_congr hgrown.current, hgrown.current]
      exact hm
  exact not_inWorkdir_of_find? (hgrown.closed hs) (by rw [hdirectory]; nofun) hin

/-! ## Files at some time during builds -/

/-- The files at some time during builds that have started with the files `s`. Outside of working
directories they are the files `r`, but for what has been written in the meantime. -/
structure Keeps (b : Builder) (s r : Store) (W : Location → ByteArray → Prop) (t : Store) : Prop where
  current : t.current = s.current
  closed : t.Closed
  written : ∀ m contents, W m contents → t.find? m = some (.file contents)
  elsewhere : ∀ m, ¬ b.Workplace s m → (∀ contents, ¬ W m contents) → t.find? m = r.find? m

/-- What a document needs to be built beside others. -/
structure Shares (b : Builder) (s : Store) (W : Location → ByteArray → Prop) : Prop where
  closed : s.Closed
  /-- The current directory is there. -/
  current : s.find? s.current = some .directory
  /-- If the directory for working directories could not be created, trying it again fails alike. -/
  final : ∀ e s', openRoot b.workRoot? s = .error e s' → openRoot b.workRoot? s' = .error e s'
  /-- Nothing is written on the way to working directories. -/
  root : ∀ m ∈ b.rootPlaces s, ∀ contents, ¬ W m contents

/-- Creating the directory for working directories once more does what it did at first. -/
theorem openRoot_ground (hs : b.Shares s W) (hr : r = s ∨ r = b.opened s) :
    (openRoot b.workRoot? r).outcome = (openRoot b.workRoot? s).outcome ∧
      (openRoot b.workRoot? r).store = b.opened s := by
  rcases hr with rfl | rfl
  · exact ⟨rfl, rfl⟩
  · cases hopen : openRoot b.workRoot? s with
    | ok _ s₁ =>
      rw [opened_eq hopen, openRoot_again hopen]
      exact ⟨rfl, rfl⟩
    | error e s₁ =>
      have heq : b.opened s = s₁ := by
        rw [opened, hopen]
        rfl
      rw [heq, hs.final e s₁ hopen]
      exact ⟨rfl, rfl⟩

theorem current_ground (hr : r = s ∨ r = b.opened s) : r.current = s.current := by
  rcases hr with rfl | rfl
  · rfl
  · exact (b.opened_grown s).current

namespace Keeps

/-- The directory for working directories is created as at the start. -/
theorem openRoot (hs : b.Shares s W) (hr : r = s ∨ r = b.opened s) (h : b.Keeps s r W t) :
    (Sphinx.openRoot b.workRoot? t).outcome = (Sphinx.openRoot b.workRoot? s).outcome ∧
      b.Keeps s (b.opened s) W (Sphinx.openRoot b.workRoot? t).store := by
  have hplaces : b.rootPlaces r = b.rootPlaces s := rootPlaces_congr (current_ground hr)
  have hplaces' : b.rootPlaces t = b.rootPlaces s := rootPlaces_congr h.current
  obtain ⟨houtcome, hstore⟩ := openRoot_ground hs hr
  have hagree : AgreeOn (b.rootPlaces r) r t := by
    refine ⟨(current_ground hr).trans h.current.symm, fun m hm => ?_⟩
    rw [hplaces] at hm
    exact (h.elsewhere m (not_workplace_of_mem_rootPlaces hs.closed hs.current hm) (hs.root m hm)).symm
  have hparallel := b.openRoot_parallel hagree
  have hgrown := b.openRoot_grown t
  have hground := b.openRoot_grown r
  refine ⟨hparallel.outcome.symm.trans houtcome, hgrown.current.trans h.current,
    hgrown.closed h.closed, fun m contents hm => hgrown.keep (h.written m contents hm),
    fun m hwork hm => ?_⟩
  by_cases hroot : m ∈ b.rootPlaces s
  · rw [← hstore]
    exact (hparallel.store.find? m (by rw [hplaces]; exact hroot)).symm
  · rw [hgrown.elsewhere (by rw [hplaces']; exact hroot), h.elsewhere m hwork hm, ← hstore]
    exact (hground.elsewhere (by rw [hplaces]; exact hroot)).symm

/-- What a new working directory could hold is in the places for working directories. -/
theorem workplace_of_inWorkdir (hopen : Sphinx.openRoot b.workRoot? s = .ok () (b.opened s))
    (hs : b.Shares s W) (h : b.Keeps s (b.opened s) W t) (hm : b.InWorkdir t m) :
    b.Workplace s m := by
  obtain ⟨l, n, hreaches, hfree, hbelow⟩ := hm
  have hcurrent : (b.opened s).current = t.current :=
    (b.opened_grown s).current.trans h.current.symm
  have hplaces : (s.absolute b.root).places s.current ⊆ b.rootPlaces s :=
    List.subset_append_right _ _
  have hreaches' : (b.opened s).Reaches ((b.opened s).absolute b.root) l := by
    rw [absolute_congr hcurrent]
    refine hreaches.mono hcurrent.symm fun m hm hdirectory => ?_
    rw [absolute_congr h.current, h.current] at hm
    have hroot := hplaces hm
    rw [← h.elsewhere m (not_workplace_of_mem_rootPlaces hs.closed hs.current hroot) (hs.root m hroot)]
    exact hdirectory
  refine ⟨_, hopen, l, n, hreaches', ?_, hbelow⟩
  by_contra hthere
  have hgrown := b.opened_grown s
  -- The place is there once the root is open, so no build creates it, and it is not free.
  have hwork : ¬ b.Workplace s (l ++ [workdirName n]) := by
    rintro ⟨s₁, hopen', hin⟩
    obtain rfl := opened_eq hopen'
    exact not_inWorkdir_of_find? (hgrown.closed hs.closed) hthere hin
  have hwritten : ∀ contents, ¬ W (l ++ [workdirName n]) contents := by
    intro contents hcontents
    rw [h.written _ _ hcontents] at hfree
    cases hfree
  exact hthere ((h.elsewhere _ hwork hwritten).symm.trans hfree)

/-- A build in a working directory keeps all else. -/
theorem buildBelow (hb : b.runner.Confined)
    (hopen : Sphinx.openRoot b.workRoot? s = .ok () (b.opened s)) (hs : b.Shares s W)
    (h : b.Keeps s (b.opened s) W t) (c : Naming) (d : Document) :
    b.Keeps s (b.opened s) W (b.buildBelow c d t).store := by
  obtain ⟨hclosed, hcurrent, helsewhere⟩ := buildBelow_store hb h.closed c d
  refine ⟨hcurrent.trans h.current, hclosed, fun m contents hm => ?_, fun m hwork hm => ?_⟩
  · have hthere := h.written m contents hm
    rw [helsewhere m (not_inWorkdir_of_find? h.closed (by rw [hthere]; nofun))]
    exact hthere
  · rw [helsewhere m fun hin => hwork (h.workplace_of_inWorkdir hopen hs hin)]
    exact h.elsewhere m hwork hm

end Keeps

/-- What comes of a build in a working directory is what comes of it once the root is open. -/
theorem buildBelow_opened (hb : b.runner.Confined) (hs : b.Shares s W)
    (h : b.Keeps s (b.opened s) W t) (c c' : Naming) (d : Document) :
    Both Error.Alike Eq (b.buildBelow c d t).view (b.buildBelow c' d (b.opened s)).view := by
  have hplaces : (s.absolute b.root).places s.current ⊆ b.rootPlaces s :=
    List.subset_append_right _ _
  have hcurrent : t.current = (b.opened s).current :=
    h.current.trans (b.opened_grown s).current.symm
  refine buildBelow_alike hb h.closed ((b.opened_grown s).closed hs.closed)
    ⟨hcurrent, fun m hm => ?_⟩ c c' d
  rw [absolute_congr h.current, h.current] at hm
  have hroot := hplaces hm
  exact h.elsewhere m (not_workplace_of_mem_rootPlaces hs.closed hs.current hroot) (hs.root m hroot)

/-- **A build beside others.** What comes of a document with places is what comes of it at the start,
and the files are kept as they are outside of working directories. -/
theorem buildWith_keeps (hb : b.runner.Confined) (hs : b.Shares s W)
    (hr : r = s ∨ r = b.opened s) (h : b.Keeps s r W t) (c : Naming) (hd : d.places ≠ []) :
    Both Error.Alike Eq (b.buildWith c d t).view (b.build d s).view ∧
      b.Keeps s (b.opened s) W (b.buildWith c d t).store := by
  obtain ⟨houtcome, hopened⟩ := h.openRoot hs hr
  have hempty : d.places.isEmpty = false := by
    rwa [List.isEmpty_eq_false_iff]
  rw [build_eq]
  unfold buildWith
  rw [hempty, if_neg Bool.false_ne_true, if_neg Bool.false_ne_true]
  cases hopen : Sphinx.openRoot b.workRoot? s with
  | error e s₁ =>
    cases hopen' : Sphinx.openRoot b.workRoot? t with
    | error e' t₁ =>
      rw [hopen, hopen'] at houtcome
      rw [hopen'] at hopened
      cases houtcome
      exact ⟨.error (.same e), hopened⟩
    | ok _ t₁ =>
      rw [hopen, hopen'] at houtcome
      cases houtcome
  | ok _ s₁ =>
    cases hopen' : Sphinx.openRoot b.workRoot? t with
    | error e' t₁ =>
      rw [hopen, hopen'] at houtcome
      cases houtcome
    | ok _ t₁ =>
      obtain rfl := opened_eq hopen
      rw [hopen'] at hopened
      exact ⟨buildBelow_opened hb hs hopened c .fresh d, hopened.buildBelow hb hopen hs c d⟩

end DocWeave.Sphinx.Builder
