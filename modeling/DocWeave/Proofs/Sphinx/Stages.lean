import DocWeave.Proofs.Sphinx.Findings

/-!
# The steps of a build

A build creates a working directory, writes the sources into it, runs Sphinx, reads what Sphinx
wrote and makes nodes of it. Each step is named here by what holds once it has succeeded.

- `Created`, `Prepared`, `Ended`, `Succeeded`, `Wrote`: how far a build has come, each on top of the
  one before.
- `build_of_create_error` and the following: what a build leaves if the next step fails.
- `build_of_collected`: what it leaves if all of its steps succeed.
-/

namespace DocWeave.Sphinx.Builder

open Description Page
open Xml (Element)

variable (b : Builder) (d : Document) (s : Store)

/-! ## How far a build has come -/

/-- There are places to fill, and the working directory `w` has been created. In this and the
following definitions the last argument stands for the files at that point. -/
def Created (w : Workdir) (s' : Store) : Prop :=
  d.places ≠ [] ∧ Workdir.createOn b.disk b.tempDir b.workRoot? s = .ok w s'

/-- The request file and the configuration file have been written. -/
def Prepared (w : Workdir) (s' : Store) : Prop :=
  ∃ s₁, b.Created d s w s₁ ∧ w.prepareOn b.disk (RequestFile.ofDocument d).text b.conf.text s₁ = .ok () s'

/-- Sphinx has been run. -/
def Ended (w : Workdir) (outcome : Outcome) (s' : Store) : Prop :=
  ∃ s₂, b.Prepared d s w s₂ ∧ b.runner ⟨w.source, w.output, w.path⟩ s₂ = .ok outcome s'

/-- Sphinx has ended with exit code zero. -/
def Succeeded (w : Workdir) (s' : Store) : Prop :=
  ∃ outcome, b.Ended d s w outcome s' ∧ outcome.exitCode? = some 0

/-- Sphinx has written the text `xml`. -/
def Wrote (w : Workdir) (xml : String) (s' : Store) : Prop :=
  b.Succeeded d s w s' ∧ s'.isFile w.resultFile = true ∧ s'.readText w.resultFile = .ok xml

/-- The text of the output was an XML document. -/
def Parsed (w : Workdir) (root : Element) (s' : Store) : Prop :=
  ∃ xml, b.Wrote d s w xml s' ∧ Xml.parse xml = .ok root

/-! ## What single steps do -/

variable {b d s} {w : Workdir} {outcome : Outcome} {xml : String} {root : Element} {e : Error}
  {s' s₁ : Store}

/-- Writing the sources and running Sphinx, one after the other. -/
theorem run_eq (b : Builder) (w : Workdir) (file : RequestFile) (s : Store) :
    b.run w file s = match w.prepareOn b.disk file.text b.conf.text s with
      | .ok _ s' => b.runner ⟨w.source, w.output, w.path⟩ s'
      | .error e s' => .error e s' := by
  show EStateM.bind _ _ s = _
  unfold EStateM.bind
  cases w.prepareOn b.disk file.text b.conf.text s <;> rfl

/-- Reading the output: it has to be a file, and the file a text. -/
theorem readResult_eq (w : Workdir) (s : Store) :
    w.readResult s =
      if s.isFile w.resultFile then
        match s.readText w.resultFile with
        | .ok xml => .ok xml s
        | .error e => .error (.system w.resultFile e) s
      else .error (.noOutput w.resultFile) s := by
  -- Whether the output is a file is told from the files as they are.
  have hget : w.readResult s =
      (if s.isFile w.resultFile then
        Files.mapError (.system w.resultFile) (Files.readText w.resultFile)
      else throw (.noOutput w.resultFile) : Action Error String) s := rfl
  rw [hget]
  split
  · unfold Files.mapError Files.readText
    cases s.readText w.resultFile <;> rfl
  · rfl

/-- Reading the output and looking modules up in it. -/
theorem collect_eq (w : Workdir) (names : List String) (s : Store) :
    collect w names s = match w.readResult s with
      | .error e s' => .error e s'
      | .ok xml s' =>
        match Findings.ofOutput names xml with
        | .ok found => .ok found s'
        | .error e => .error e s' := by
  show EStateM.bind _ _ s = _
  unfold EStateM.bind
  cases w.readResult s with
  | error _ _ => rfl
  | ok xml s' =>
    dsimp only
    cases Findings.ofOutput names xml <;> rfl

/-! ## What a build leaves, step by step -/

/-- Without places there is nothing to do. -/
theorem build_of_no_places (h : d.places = []) : b.build d s = ⟨.ok {}, d, s⟩ := by
  unfold build
  rw [h]
  rfl

/-- If there is no working directory, nothing has to be removed. -/
theorem build_of_create_error (hplaces : d.places ≠ [])
    (h : Workdir.createOn b.disk b.tempDir b.workRoot? s = .error e s') :
    b.build d s = ⟨.error e, d, s'⟩ := by
  unfold build
  rw [if_neg (by simpa using hplaces), h]

theorem build_of_created (h : b.Created d s w s') : b.build d s = b.buildIn w d s' := by
  unfold build
  rw [if_neg (by simpa using h.1), h.2]

/-- If the sources cannot be written, the working directory goes. -/
theorem build_of_prepare_error (hcreated : b.Created d s w s₁)
    (h : w.prepareOn b.disk (RequestFile.ofDocument d).text b.conf.text s₁ = .error e s') :
    b.build d s = ⟨.error e, d, w.remove s'⟩ := by
  rw [build_of_created hcreated]
  unfold buildIn
  simp only [run_eq, h]

theorem build_of_start_error (hprepared : b.Prepared d s w s₁)
    (h : b.runner ⟨w.source, w.output, w.path⟩ s₁ = .error e s') :
    b.build d s = ⟨.error e, d, w.remove s'⟩ := by
  obtain ⟨s₀, hcreated, hprepare⟩ := hprepared
  rw [build_of_created hcreated]
  unfold buildIn
  simp only [run_eq, hprepare, h]

/-- If Sphinx fails, the working directory stays, and the error tells where the log is. -/
theorem build_of_exit (hended : b.Ended d s w outcome s') (h : outcome.exitCode? ≠ some 0) :
    b.build d s = ⟨.error (.failed outcome.exitCode? outcome.stderr), d, s'⟩ := by
  obtain ⟨s₂, ⟨s₁, hcreated, hprepare⟩, hrun⟩ := hended
  rw [build_of_created hcreated]
  unfold buildIn
  have hfail : outcome.isSuccess = false := by
    rw [Outcome.isSuccess, decide_eq_false_iff_not]
    exact h
  simp only [run_eq, hprepare, hrun, hfail, Bool.false_eq_true, if_false]

theorem build_of_collect_error (hsucceeded : b.Succeeded d s w s₁)
    (h : collect w (requestedModules d) s₁ = .error e s') :
    b.build d s = ⟨.error e, d, w.remove s'⟩ := by
  obtain ⟨outcome, ⟨s₂, ⟨s₀, hcreated, hprepare⟩, hrun⟩, hcode⟩ := hsucceeded
  rw [build_of_created hcreated]
  unfold buildIn
  have hok : outcome.isSuccess = true := by
    rw [Outcome.isSuccess, decide_eq_true_iff]
    exact hcode
  simp only [run_eq, hprepare, hrun, hok, if_true, h]

/-- The report of a build that found `t`, with the number of descriptions that were dropped. -/
def reportOf (b : Builder) (d : Document) (w : Workdir) (t : Findings) (dropped : Nat) : Report where
  requests := (RequestFile.ofDocument d).size
  filled := d.places.countP fun place => (t.get? place.request.moduleName).isSome
  missing := t.missing
  dropped := dropped
  workdir? := if b.keepWorkdir then some w.path else none

/-- Otherwise the places are filled, and the working directory stays if that is wanted. -/
theorem build_of_collected {t : Findings} {dropped : Nat} (hsucceeded : b.Succeeded d s w s₁)
    (h : collect w (requestedModules d) s₁ = .ok (t, dropped) s') :
    b.build d s = ⟨.ok (b.reportOf d w t dropped), fillDocument t d,
      if b.keepWorkdir then s' else w.remove s'⟩ := by
  obtain ⟨outcome, ⟨s₂, ⟨s₀, hcreated, hprepare⟩, hrun⟩, hcode⟩ := hsucceeded
  rw [build_of_created hcreated]
  unfold buildIn
  have hok : outcome.isSuccess = true := by
    rw [Outcome.isSuccess, decide_eq_true_iff]
    exact hcode
  simp only [run_eq, hprepare, hrun, hok, if_true, h, reportOf]

end DocWeave.Sphinx.Builder
