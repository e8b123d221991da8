import DocWeave.Proofs.CommandLine.Interleaving
import DocWeave.Proofs.CommandLine.Targets
import DocWeave.Proofs.Sphinx.Sharing

/-!
# The files while documents are built at the same time

At any time, the files are those at the start, or those with the directory for working directories, but
for the targets that have been written and for what is in working directories. So whenever a document
takes a step, it finds what it would have found at the start.

- `Planned`, `Apart`: what is assumed about the sources, the output directory and the files at the start.
- `made`: what comes of a document, told from the files at the start.
- `Invariant`: how far the documents are and what the files hold.
- `Invariant.start`, `Invariant.advance`, `Invariant.run`: it holds at the start, and steps keep it.
-/

namespace DocWeave.CommandLine

open Sphinx (Builder Naming Both)

/-- Errors that differ at most in the number of a working directory. -/
inductive DocumentError.Alike : DocumentError → DocumentError → Prop
  | file (path : Path) (e : SystemError) : Alike (.file path e) (.file path e)
  | build {e f : Sphinx.Error} (h : e.Alike f) : Alike (.build e) (.build f)

/-- The place of the target of a source. -/
def targetPlace (dir : Path) (format : Format) (s : Store) (p : Path) : Location :=
  (targetOf dir format p).goal s.current

/-- Documents that are to be built: where they are written is known, and the output directory is there. -/
structure Planned (b : Builder) (format : Format) (dir : Path) (sources : List Path) (s : Store) :
    Prop where
  /-- What there is stands in directories. -/
  closed : s.Closed
  /-- The current directory is there. -/
  current : s.find? s.current = some .directory
  /-- So is the output directory. -/
  reached : s.Reaches dir (dir.goal s.current)
  /-- Each run of Sphinx keeps to its working directory. -/
  runner : b.runner.Confined
  /-- Each source has a file name. -/
  names : ∀ p ∈ sources, p.name?.isSome
  /-- No two sources have the same target. -/
  planned : ∃ targets, targetsOf dir format sources = .ok targets

/-- Documents none of which creates something on the way of another one. -/
structure Apart (b : Builder) (format : Format) (dir : Path) (sources : List Path) (s : Store) : Prop
    extends Planned b format dir sources s where
  /-- No target is on the way to working directories. -/
  root : ∀ p ∈ sources, targetPlace dir format s p ∉ b.rootPlaces s
  /-- If the directory for working directories could not be created, trying it again fails alike. -/
  final : ∀ e s', Sphinx.openRoot b.workRoot? s = .error e s' →
    Sphinx.openRoot b.workRoot? s' = .error e s'
  /-- Creating it does not change what is read. -/
  opened : ∀ p ∈ sources, (b.opened s).readText p = s.readText p
  /-- No source leads through the target of another one that is missing. -/
  way : ∀ p ∈ sources, ∀ q ∈ sources, p ≠ q → s.find? (targetPlace dir format s q) = none →
    targetPlace dir format s q ∉ p.way s.current
  /-- No source leads into a new working directory. -/
  outside : ∀ p ∈ sources, ∀ m ∈ p.places s.current, ¬ b.Workplace s m

variable {b : Builder} {format : Format} {dir p q : Path} {sources : List Path} {s t r : Store}
  {c : Naming} {st : State} {m : Location}

/-! ## What comes of a document -/

/-- The text of a document and the warnings, or why it fails, told from the files at the start. -/
def made (b : Builder) (format : Format) (dir : Path) (s : Store) (p : Path) :
    Except DocumentError (String × List String) :=
  match s.readText p with
  | .error e => .error (.file p e)
  | .ok text =>
    match (buildSource b format text s).outcome with
    | .error e => .error e
    | .ok output =>
      if s.find? (targetPlace dir format s p) = some .directory then
        .error (.file (targetOf dir format p) .isDirectory)
      else .ok output

/-- Once it has been built, a document only fails if its target is a directory. -/
theorem made_of_built {text : String} {output : String × List String}
    (hread : s.readText p = .ok text) (hbuild : (buildSource b format text s).outcome = .ok output) :
    made b format dir s p =
      if s.find? (targetPlace dir format s p) = some .directory then
        .error (.file (targetOf dir format p) .isDirectory)
      else .ok output := by
  unfold made
  rw [hread]
  dsimp only
  rw [hbuild]

/-- Whether Sphinx is run for a document. -/
def needsSphinx (s : Store) (p : Path) : Bool :=
  match s.readText p with
  | .ok text => !(Page.parse text).1.places.isEmpty
  | .error _ => false

/-- What has come of a document so far. -/
inductive Fits (b : Builder) (format : Format) (dir : Path) (s : Store) (p : Path) : Progress → Prop
  | waiting : Fits b format dir s p .waiting
  | read {text : String} (hread : s.readText p = .ok text) : Fits b format dir s p (.read text)
  | built {text output : String} {warnings : List String} (hread : s.readText p = .ok text)
    (hbuild : (buildSource b format text s).outcome = .ok (output, warnings)) :
    Fits b format dir s p (.built output warnings)
  | done {result : Except DocumentError (List String)}
    (h : Both DocumentError.Alike Eq result ((made b format dir s p).map Prod.snd)) :
    Fits b format dir s p (.done result)

/-- What has been written to a place. -/
def Written (b : Builder) (format : Format) (dir : Path) (sources : List Path) (s : Store)
    (progress : Path → Progress) (m : Location) (contents : ByteArray) : Prop :=
  ∃ p ∈ sources, ∃ output warnings, progress p = .done (.ok warnings) ∧
    made b format dir s p = .ok (output, warnings) ∧ targetPlace dir format s p = m ∧
    output.toUTF8 = contents

/-- The files without what has been written. The directory for working directories is there as soon as
Sphinx has been run for some document. -/
def ground (b : Builder) (sources : List Path) (s : Store) (progress : Path → Progress) : Store :=
  if sources.any fun p => needsSphinx s p && (progress p).isBuilt then b.opened s else s

/-- How far the documents are, and what the files hold. -/
structure Invariant (b : Builder) (format : Format) (dir : Path) (sources : List Path) (s : Store)
    (st : State) : Prop where
  fits : ∀ p ∈ sources, Fits b format dir s p (st.progress p)
  keeps : b.Keeps s (ground b sources s st.progress) (Written b format dir sources s st.progress)
    st.store

/-- The files are those at the start, or those with the directory for working directories. -/
theorem ground_cases (b : Builder) (sources : List Path) (s : Store) (progress : Path → Progress) :
    ground b sources s progress = s ∨ ground b sources s progress = b.opened s := by
  unfold ground
  split
  · exact Or.inr rfl
  · exact Or.inl rfl

/-- What is there at the start stays, but for what is written. -/
theorem find?_ground {progress : Path → Progress} {e : Entry} (hm : s.find? m = some e) :
    (ground b sources s progress).find? m = some e := by
  rcases ground_cases b sources s progress with h | h
  · rw [h, hm]
  · rw [h]
    exact (b.opened_grown s).keep hm

/-! ## What is written where -/

theorem targetPlace_eq (hp : p.name?.isSome) :
    targetPlace dir format s p = dir.goal s.current ++ [targetName format p] :=
  goal_targetOf hp

namespace Apart

variable (h : Apart b format dir sources s)
include h

/-- Different sources have their targets in different places. -/
theorem targetPlace_injective (hp : p ∈ sources) (hq : q ∈ sources)
    (heq : targetPlace dir format s p = targetPlace dir format s q) : p = q := by
  by_contra hne
  obtain ⟨targets, hplanned⟩ := h.planned
  exact goal_target_ne_goal_target hplanned h.names hp hq hne heq

/-- A target is not named like a working directory. -/
theorem targetPlace_not_workplace (hp : p ∈ sources) :
    ¬ b.Workplace s (targetPlace dir format s p) := by
  rintro ⟨s₁, hopen, l, n, -, hfree, hbelow⟩
  have hgrown := b.opened_grown s
  rw [Builder.opened_eq hopen] at hgrown
  rw [targetPlace_eq (h.names p hp), List.prefix_concat_iff] at hbelow
  rcases hbelow with heq | hbelow
  · -- The names differ: only that of a target has a dot.
    obtain ⟨-, hlast⟩ := List.append_inj' heq rfl
    have hname : Sphinx.workdirName n = targetName format p := (List.cons.inj hlast).1
    refine Sphinx.not_mem_workdirName (Or.inr rfl) n (c := '.') ?_
    obtain ⟨name, hsome⟩ := Option.isSome_iff_exists.mp (h.names p hp)
    rw [hname, toList_targetName hsome]
    exact List.mem_append_right _ List.mem_cons_self
  · -- Nor is the output directory in a working directory, which was not there at the start.
    have hnone := (hgrown.closed h.closed).nothing_below hfree hbelow
    have hthere := hgrown.keep h.reached.directory
    exact nomatch hnone.symm.trans hthere

/-- What has been written so far does not disturb builds. -/
theorem shares (progress : Path → Progress) :
    b.Shares s (Written b format dir sources s progress) where
  closed := h.closed
  current := h.current
  final := h.final
  root := by
    rintro m hm contents ⟨p, hp, -, -, -, -, rfl, -⟩
    exact h.root p hp hm

end Apart

/-- What is written takes the place of a file or of nothing. -/
theorem not_directory_of_made {output : String × List String}
    (h : made b format dir s p = .ok output) :
    s.find? (targetPlace dir format s p) ≠ some .directory := by
  unfold made at h
  intro hdirectory
  split at h
  · cases h
  · split at h
    · cases h
    · rw [if_pos hdirectory] at h
      cases h

namespace Invariant

variable (h : Apart b format dir sources s) (hst : Invariant b format dir sources s st)
include h hst

/-- No directory is lost. -/
theorem directory (hm : s.find? m = some .directory) : st.store.find? m = some .directory := by
  -- A directory that is there is in no new working directory, and no target is written over it.
  rw [hst.keeps.elsewhere m (Builder.not_workplace_of_find? h.closed hm)]
  · exact find?_ground hm
  · rintro contents ⟨p, -, output, warnings, -, hmade, rfl, -⟩
    exact not_directory_of_made hmade hm

/-- The output directory stays reachable. -/
theorem reaches : st.store.Reaches dir (dir.goal s.current) :=
  h.reached.mono hst.keeps.current.symm fun _ _ => hst.directory h

/-- A target is as it was until it is written. -/
theorem find?_target (hp : p ∈ sources) (hnot : ∀ warnings, st.progress p ≠ .done (.ok warnings)) :
    st.store.find? (targetPlace dir format s p) = s.find? (targetPlace dir format s p) := by
  rw [hst.keeps.elsewhere _ (h.targetPlace_not_workplace hp)]
  · rcases ground_cases b sources s st.progress with hground | hground
    · rw [hground]
    · rw [hground]
      exact (b.opened_grown s).elsewhere (h.root p hp)
  · rintro contents ⟨q, hq, output, warnings, hdone, -, heq, -⟩
    obtain rfl := h.targetPlace_injective hq hp heq
    exact hnot warnings hdone

/-- A source is as it was until it is read. -/
theorem readText (hp : p ∈ sources) (hwaiting : st.progress p = .waiting) :
    st.store.readText p = s.readText p := by
  -- Whatever has been written, this document has not.
  have hother : ∀ q, ∀ warnings, st.progress q = .done (.ok warnings) → p ≠ q := by
    rintro q warnings hdone rfl
    rw [hwaiting] at hdone
    cases hdone
  have hground : (ground b sources s st.progress).readText p = s.readText p := by
    rcases ground_cases b sources s st.progress with hground | hground
    · rw [hground]
    · rw [hground]
      exact h.opened p hp
  have houtside : ∀ m ∈ p.places s.current, ¬ b.Workplace s m := h.outside p hp
  rw [← hground]
  have hcurrent := Builder.current_ground (ground_cases b sources s st.progress)
  refine Store.readText_congr (hst.keeps.current.trans hcurrent.symm) (fun m hm => ?_) ?_
  · rw [hst.keeps.current] at hm
    have hwork := houtside m (List.mem_append_left _ hm)
    by_cases hwritten : ∃ contents, Written b format dir sources s st.progress m contents
    · -- The target of another document is a file now, and has been one before.
      obtain ⟨contents, hcontents⟩ := hwritten
      have hfile := hst.keeps.written m contents hcontents
      obtain ⟨q, hq, output, warnings, hdone, hmade, rfl, -⟩ := hcontents
      cases hbefore : s.find? (targetPlace dir format s q) with
      | none => exact absurd hm (h.way p hp q hq (hother q _ hdone) hbefore)
      | some e =>
        have hnot := not_directory_of_made hmade
        rw [hbefore] at hnot
        have hkept : (ground b sources s st.progress).find? (targetPlace dir format s q) = some e :=
          find?_ground hbefore
        rw [Store.kind?, Store.kind?, hfile, hkept]
        simpa using fun he => hnot (congrArg some he)
    · exact Store.kind?_congr (hst.keeps.elsewhere m hwork (not_exists.mp hwritten))
  · rw [hst.keeps.current]
    refine hst.keeps.elsewhere _ (houtside _ (List.mem_append_right _ (List.mem_singleton_self _))) ?_
    rintro contents ⟨q, hq, output, warnings, hdone, -, heq, -⟩
    obtain ⟨targets, hplanned⟩ := h.planned
    exact goal_source_ne_goal_target hplanned h.names hp hq (hother q _ hdone) heq.symm

/-- How a target is written. -/
theorem writeTarget_eq (hp : p ∈ sources) (hnot : ∀ warnings, st.progress p ≠ .done (.ok warnings))
    (output : String) : writeTarget (targetOf dir format p) output st.store =
      if s.find? (targetPlace dir format s p) = some .directory then
        .error (.file (targetOf dir format p) .isDirectory) st.store
      else .ok () (st.store.put (targetPlace dir format s p) (.file output.toUTF8)) := by
  have hlocate : st.store.locate (targetOf dir format p) = .ok (targetPlace dir format s p) := by
    rw [targetPlace_eq (h.names p hp)]
    exact (hst.reaches h).locate_child (properName_targetName (h.names p hp))
  unfold writeTarget Files.mapError Files.writeText
  rw [Files.write_eq, hlocate]
  dsimp only
  rw [hst.find?_target h hp hnot]
  by_cases hdirectory : s.find? (targetPlace dir format s p) = some .directory
  · rw [if_pos hdirectory, if_pos hdirectory]
  · rw [if_neg hdirectory, if_neg hdirectory]

end Invariant

/-! ## What a step changes -/

variable {progress : Path → Progress} {next : Progress} {W : Location → ByteArray → Prop}
  {text output : String} {warnings : List String}

theorem readSource_eq (p : Path) (t : Store) : readSource p t =
    match t.readText p with
    | .ok text => .ok text t
    | .error e => .error (.file p e) t := by
  unfold readSource Files.mapError Files.readText
  cases t.readText p <;> rfl

/-- What comes of building a source, by what comes of building its document. -/
theorem buildSourceWith_outcome (c : Naming) (b : Builder) (format : Format) (text : String)
    (t : Store) : (buildSourceWith c b format text t).outcome =
      ((b.buildWith c (Page.parse text).1 t).view.mapError .build).map fun made =>
        (render format made.1, (Page.parse text).2.map (·.message) ++ made.2) := by
  unfold buildSourceWith yielded Sphinx.Built.view
  cases (b.buildWith c (Page.parse text).1 t).result <;> rfl

theorem buildSourceWith_store (c : Naming) (b : Builder) (format : Format) (text : String)
    (t : Store) :
    (buildSourceWith c b format text t).store = (b.buildWith c (Page.parse text).1 t).store := by
  unfold buildSourceWith yielded
  cases (b.buildWith c (Page.parse text).1 t).result <;> rfl

variable (format) in
/-- What comes of a build, and what it leaves of the files, at any time. -/
theorem buildSource_keeps (hb : b.runner.Confined) (hs : b.Shares s W)
    (hr : r = s ∨ r = b.opened s) (ht : b.Keeps s r W t) (c : Naming) (text : String) :
    Both DocumentError.Alike Eq (buildSourceWith c b format text t).outcome
      (buildSource b format text s).outcome ∧
    b.Keeps s (if (Page.parse text).1.places.isEmpty then r else b.opened s) W
      (buildSourceWith c b format text t).store := by
  -- Rendering and the warnings of parsing are the same for both.
  have hview {v v' : Except Sphinx.Error (Page.Document × List String)}
      (hv : Both Sphinx.Error.Alike Eq v v') (f : Page.Document × List String → String × List String) :
      Both DocumentError.Alike Eq ((v.mapError .build).map f) ((v'.mapError .build).map f) := by
    cases hv with
    | error he => exact .error (.build he)
    | ok heq =>
      subst heq
      exact .ok rfl
  rw [buildSource_eq, buildSourceWith_outcome, buildSourceWith_outcome, buildSourceWith_store]
  by_cases hempty : (Page.parse text).1.places.isEmpty = true
  · rw [if_pos hempty, Builder.buildWith, Builder.buildWith, if_pos hempty, if_pos hempty]
    exact ⟨hview (.ok rfl) _, ht⟩
  · have hplaces : (Page.parse text).1.places ≠ [] := fun hnil => hempty (by rw [hnil]; rfl)
    obtain ⟨hbuilt, hkeeps⟩ := Builder.buildWith_keeps hb hs hr ht c hplaces
    rw [if_neg hempty, ← Builder.build_eq]
    exact ⟨hview hbuilt _, hkeeps⟩

namespace Fits

/-- A document that has been read held this text at the start. -/
theorem readText (h : Fits b format dir s p (.read text)) : s.readText p = .ok text := by
  cases h with
  | read hread => exact hread

theorem outcome (h : Fits b format dir s p (.built output warnings)) :
    ∃ text, s.readText p = .ok text ∧
      (buildSource b format text s).outcome = .ok (output, warnings) := by
  cases h with
  | built hread hbuild => exact ⟨_, hread, hbuild⟩

/-- A build that goes as it would have gone at the start. -/
theorem of_built {built : String × List String} (hread : s.readText p = .ok text)
    (h : Both DocumentError.Alike Eq (.ok built) (buildSource b format text s).outcome) :
    Fits b format dir s p (.built built.1 built.2) := by
  refine .built hread ?_
  generalize (buildSource b format text s).outcome = alone at h
  cases h with
  | ok heq => rw [← heq]

/-- A build that fails as it would have failed at the start. -/
theorem of_error {e : DocumentError} (hread : s.readText p = .ok text)
    (h : Both DocumentError.Alike Eq (.error e) (buildSource b format text s).outcome) :
    Fits b format dir s p (.done (.error e)) := by
  refine .done ?_
  unfold made
  rw [hread]
  dsimp only
  generalize (buildSource b format text s).outcome = alone at h ⊢
  cases h with
  | error he => exact .error he

end Fits

/-- Steps that do not write leave what is written as it is. -/
theorem written_update (hold : ∀ warnings, progress p ≠ .done (.ok warnings))
    (hnew : ∀ warnings, next ≠ .done (.ok warnings)) :
    Written b format dir sources s (Function.update progress p next) =
      Written b format dir sources s progress := by
  funext m contents
  refine propext ⟨?_, ?_⟩
  · rintro ⟨q, hq, output, warnings, hdone, hrest⟩
    have hne : q ≠ p := by
      rintro rfl
      rw [Function.update_self] at hdone
      exact hnew warnings hdone
    rw [Function.update_of_ne hne] at hdone
    exact ⟨q, hq, output, warnings, hdone, hrest⟩
  · rintro ⟨q, hq, output, warnings, hdone, hrest⟩
    have hne : q ≠ p := by
      rintro rfl
      exact hold warnings hdone
    refine ⟨q, hq, output, warnings, ?_, hrest⟩
    rwa [Function.update_of_ne hne]

/-- A step that builds nothing, or a document that needs no Sphinx, leaves the ground as it is. -/
theorem ground_update (hp : needsSphinx s p = true → next.isBuilt = (progress p).isBuilt) :
    ground b sources s (Function.update progress p next) = ground b sources s progress := by
  have hsame : (fun q => needsSphinx s q && (Function.update progress p next q).isBuilt) =
      fun q => needsSphinx s q && (progress q).isBuilt := by
    funext q
    by_cases heq : q = p
    · subst heq
      rw [Function.update_self]
      cases hneeds : needsSphinx s q with
      | true => rw [hp hneeds]
      | false => rfl
    · rw [Function.update_of_ne heq]
  unfold ground
  rw [hsame]

/-- Building a document that needs Sphinx opens the directory for working directories. -/
theorem ground_update_of_needsSphinx (hp : p ∈ sources) (hneeds : needsSphinx s p = true)
    (hnext : next.isBuilt = true) :
    ground b sources s (Function.update progress p next) = b.opened s := by
  refine if_pos (List.any_eq_true.mpr ⟨p, hp, ?_⟩)
  rw [hneeds, Function.update_self, hnext]
  rfl

/-- Once a document that was read has been built, the directory for working directories is there if the
document has places. -/
theorem ground_update_of_readText (hp : p ∈ sources) (hread : s.readText p = .ok text)
    (hnext : next.isBuilt = true) :
    ground b sources s (Function.update progress p next) =
      if (Page.parse text).1.places.isEmpty then ground b sources s progress else b.opened s := by
  have hneeds : needsSphinx s p = !(Page.parse text).1.places.isEmpty := by
    rw [needsSphinx, hread]
  cases hempty : (Page.parse text).1.places.isEmpty with
  | true =>
    rw [hempty] at hneeds
    exact ground_update fun hsphinx => absurd (hneeds.symm.trans hsphinx) Bool.false_ne_true
  | false =>
    rw [hempty] at hneeds
    exact ground_update_of_needsSphinx hp hneeds hnext

/-- What is written once another target has been written. -/
theorem written_update_done (hp : p ∈ sources)
    (hold : ∀ warnings, progress p ≠ .done (.ok warnings))
    (hmade : made b format dir s p = .ok (output, warnings)) {contents : ByteArray} :
    Written b format dir sources s (Function.update progress p (.done (.ok warnings))) m contents ↔
      Written b format dir sources s progress m contents ∨
        targetPlace dir format s p = m ∧ output.toUTF8 = contents := by
  constructor
  · rintro ⟨q, hq, output', warnings', hdone, hmade', hrest⟩
    by_cases heq : q = p
    · subst heq
      rw [hmade] at hmade'
      cases hmade'
      exact Or.inr hrest
    · rw [Function.update_of_ne heq] at hdone
      exact Or.inl ⟨q, hq, output', warnings', hdone, hmade', hrest⟩
  · rintro (⟨q, hq, output', warnings', hdone, hrest⟩ | hrest)
    · have hne : q ≠ p := by
        rintro rfl
        exact hold warnings' hdone
      refine ⟨q, hq, output', warnings', ?_, hrest⟩
      rwa [Function.update_of_ne hne]
    · exact ⟨p, hp, output, warnings, Function.update_self _ _ _, hmade, hrest⟩

namespace Invariant

variable (h : Apart b format dir sources s) (hst : Invariant b format dir sources s st)
include h hst

omit h in
/-- A step of one document does not change how far the others are. -/
theorem update (hp : Fits b format dir s p next)
    (hkeeps : b.Keeps s (ground b sources s (Function.update st.progress p next))
      (Written b format dir sources s (Function.update st.progress p next)) t) :
    Invariant b format dir sources s ⟨t, Function.update st.progress p next⟩ := by
  refine ⟨fun q hq => ?_, hkeeps⟩
  by_cases heq : q = p
  · subst heq
    dsimp only
    rwa [Function.update_self]
  · dsimp only
    rw [Function.update_of_ne heq]
    exact hst.fits q hq

omit h in
/-- A step that leaves the files alone. -/
theorem update_progress (hp : Fits b format dir s p next)
    (hold : ∀ warnings, st.progress p ≠ .done (.ok warnings))
    (hnew : ∀ warnings, next ≠ .done (.ok warnings))
    (hbuilt : needsSphinx s p = true → next.isBuilt = (st.progress p).isBuilt) :
    Invariant b format dir sources s ⟨st.store, Function.update st.progress p next⟩ := by
  refine hst.update hp ?_
  rw [ground_update hbuilt, written_update hold hnew]
  exact hst.keeps

/-- Reading a source. -/
theorem read (hp : p ∈ sources) (hwaiting : st.progress p = .waiting) :
    Invariant b format dir sources s (st.advance c b format dir p) := by
  have hold : ∀ warnings, st.progress p ≠ .done (.ok warnings) := by
    intro warnings hdone
    rw [hwaiting] at hdone
    cases hdone
  unfold State.advance
  rw [hwaiting, Progress.step, readSource_eq, hst.readText h hp hwaiting]
  cases hread : s.readText p with
  | ok text =>
    show Invariant b format dir sources s ⟨st.store, Function.update st.progress p (.read text)⟩
    refine hst.update_progress (.read hread) hold (fun _ hdone => by cases hdone) fun _ => ?_
    rw [hwaiting]
    rfl
  | error e =>
    have hmade : made b format dir s p = .error (.file p e) := by
      unfold made
      rw [hread]
    have hneeds : needsSphinx s p = false := by
      rw [needsSphinx, hread]
    show Invariant b format dir sources s
      ⟨st.store, Function.update st.progress p (.done (.error (.file p e)))⟩
    refine hst.update_progress (.done ?_) hold (fun _ hdone => by cases hdone) fun hsphinx => ?_
    · rw [hmade]
      exact .error (.file p e)
    · rw [hneeds] at hsphinx
      cases hsphinx

/-- Building a document. -/
theorem build (hp : p ∈ sources) (hnow : st.progress p = .read text) :
    Invariant b format dir sources s (st.advance c b format dir p) := by
  have hread : s.readText p = .ok text := Fits.readText (hnow ▸ hst.fits p hp)
  have hold : ∀ warnings, st.progress p ≠ .done (.ok warnings) := by
    intro warnings hdone
    rw [hnow] at hdone
    cases hdone
  obtain ⟨houtcome, hkeeps⟩ := buildSource_keeps format h.runner (h.shares st.progress)
    (ground_cases b sources s st.progress) hst.keeps c text
  unfold State.advance
  rw [hnow, Progress.step]
  -- Whatever comes next, the document has been built.
  cases hbuild : buildSourceWith c b format text st.store with
  | ok built t =>
    rw [hbuild] at houtcome hkeeps
    show Invariant b format dir sources s
      ⟨t, Function.update st.progress p (.built built.1 built.2)⟩
    refine hst.update (.of_built hread houtcome) ?_
    rw [ground_update_of_readText hp hread rfl, written_update hold fun _ hdone => by cases hdone]
    exact hkeeps
  | error e t =>
    rw [hbuild] at houtcome hkeeps
    show Invariant b format dir sources s ⟨t, Function.update st.progress p (.done (.error e))⟩
    refine hst.update (.of_error hread houtcome) ?_
    rw [ground_update_of_readText hp hread rfl, written_update hold fun _ hdone => by cases hdone]
    exact hkeeps

/-- What the files hold once a target has been written. -/
theorem keeps_put (hp : p ∈ sources) (hold : ∀ warnings, st.progress p ≠ .done (.ok warnings))
    (hmade : made b format dir s p = .ok (output, warnings)) :
    b.Keeps s (ground b sources s st.progress)
      (Written b format dir sources s (Function.update st.progress p (.done (.ok warnings))))
      (st.store.put (targetPlace dir format s p) (.file output.toUTF8)) := by
  have hplace : targetPlace dir format s p = _ := targetPlace_eq (h.names p hp)
  have hne : targetPlace dir format s p ≠ [] := by
    rw [hplace]
    simp
  have hnot := not_directory_of_made hmade
  -- The place of the target is in the output directory, and holds no directory itself.
  refine ⟨hst.keeps.current, hst.keeps.closed.put hne ?_ fun hdirectory => ?_,
    fun m contents hm => ?_, fun m hwork hm => ?_⟩
  · rw [hplace, List.dropLast_concat]
    exact hst.directory h h.reached.directory
  · rw [hst.find?_target h hp hold] at hdirectory
    exact absurd hdirectory hnot
  · rw [Store.find?_put hne]
    rcases (written_update_done hp hold hmade).mp hm with hm | ⟨rfl, rfl⟩
    · have hother : m ≠ targetPlace dir format s p := by
        intro heq
        obtain ⟨q, hq, _, warnings', hdone, -, hq', -⟩ := hm
        obtain rfl := h.targetPlace_injective hq hp (hq'.trans heq)
        exact hold warnings' hdone
      rw [if_neg hother]
      exact hst.keeps.written m contents hm
    · exact if_pos rfl
  · have hother : m ≠ targetPlace dir format s p := fun heq =>
      hm _ ((written_update_done hp hold hmade).mpr (Or.inr ⟨heq.symm, rfl⟩))
    rw [Store.find?_put hne, if_neg hother]
    exact hst.keeps.elsewhere m hwork fun contents hwritten =>
      hm contents ((written_update_done hp hold hmade).mpr (Or.inl hwritten))

/-- Writing a target. -/
theorem write (hp : p ∈ sources) (hnow : st.progress p = .built output warnings) :
    Invariant b format dir sources s (st.advance c b format dir p) := by
  obtain ⟨text, hread, hbuild⟩ := Fits.outcome (hnow ▸ hst.fits p hp)
  have hold : ∀ warnings, st.progress p ≠ .done (.ok warnings) := by
    intro warnings hdone
    rw [hnow] at hdone
    cases hdone
  have hmade : made b format dir s p = _ := made_of_built hread hbuild
  unfold State.advance
  rw [hnow, Progress.step, hst.writeTarget_eq h hp hold]
  by_cases hdirectory : s.find? (targetPlace dir format s p) = some .directory
  · rw [if_pos hdirectory] at hmade ⊢
    show Invariant b format dir sources s ⟨st.store, Function.update st.progress p
      (.done (.error (.file (targetOf dir format p) .isDirectory)))⟩
    refine hst.update_progress (.done ?_) hold (fun _ hdone => by cases hdone) fun _ => ?_
    · rw [hmade]
      exact .error (.file _ _)
    · rw [hnow]
      rfl
  · rw [if_neg hdirectory] at hmade ⊢
    show Invariant b format dir sources s
      ⟨st.store.put (targetPlace dir format s p) (.file output.toUTF8),
        Function.update st.progress p (.done (.ok warnings))⟩
    refine hst.update (.done ?_) ?_
    · rw [hmade]
      exact .ok rfl
    · rw [ground_update fun _ => by rw [hnow]; rfl]
      exact hst.keeps_put h hp hold hmade

/-- A document that takes its next step. -/
theorem advance (hp : p ∈ sources) (c : Naming) :
    Invariant b format dir sources s (st.advance c b format dir p) := by
  -- What the step does depends on how far the document is; the last case does nothing.
  cases hnow : st.progress p with
  | waiting => exact hst.read h hp hnow
  | read text => exact hst.build h hp hnow
  | built output warnings => exact hst.write h hp hnow
  | done result =>
    have hsame : st.advance c b format dir p = st := by
      unfold State.advance
      rw [hnow, Progress.step]
      dsimp only
      rw [← hnow, Function.update_eq_self]
    rw [hsame]
    exact hst

/-- Documents that take steps. -/
theorem run {st' : State} (hrun : Run b format dir sources st st') :
    Invariant b format dir sources s st' := by
  -- By induction on the steps taken: each of them keeps the invariant.
  induction hrun with
  | refl => exact hst
  | tail _ hstep ih =>
    cases hstep with
    | advance c hp => exact ih.advance h hp c

omit hst in
/-- Before any step. -/
theorem start : Invariant b format dir sources s (.start s) := by
  have hground : ground b sources s (fun _ => .waiting) = s := by
    refine if_neg fun hany => ?_
    obtain ⟨p, -, hp⟩ := List.any_eq_true.mp hany
    rw [Progress.isBuilt, Bool.and_false] at hp
    cases hp
  refine ⟨fun p _ => .waiting, rfl, h.closed, ?_, fun m _ _ => ?_⟩
  · rintro m contents ⟨p, -, output, warnings, hdone, -⟩
    cases hdone
  · show s.find? m = (ground b sources s fun _ => .waiting).find? m
    rw [hground]

end Invariant

end DocWeave.CommandLine
