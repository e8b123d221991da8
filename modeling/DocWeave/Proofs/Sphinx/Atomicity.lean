import DocWeave.Proofs.Sphinx.Stages

/-!
# Builds are atomic

A build changes the document only after its last step that can fail. If a step fails, the build
fails with the error of that step, however the later steps would have gone.

- `FirstFailure`: the step that fails, with its error; `build_cases`: there is one, or the build
  succeeds.
- `result_eq_error_iff`: a build fails with the error of the first step that fails, and only so.
- `document_of_error`: a build that fails leaves the document as it was.
- `build_atomic`: which error a build reports, and what it leaves of the document.
- `build_atomic_two_modules`: two modules with unsupported elements; the first one in order counts.
-/

namespace DocWeave.Sphinx.Builder

open Description Page
open Xml (Element)

variable {b : Builder} {d : Document} {s s' : Store} {w : Workdir} {root : Element} {e : Error}

/-! ## The step that fails -/

/-- The index of an output. -/
abbrev indexOf (root : Element) : ModuleIndex :=
  ModuleIndex.ofList (descriptions root)

/-- What is looked up about a module in the index of an output. -/
theorem getD_get?_indexOf (root : Element) (name : String) :
    ((indexOf root).get? name).getD [] = ofModule name (outermost root) := by
  rw [ModuleIndex.get?_ofList, descriptions_eq_outermost]
  unfold ModuleIndex.bucket?
  split
  · rename_i h
    rw [h]
    rfl
  · rfl

/-- The look-up fails exactly at the first culprit. -/
theorem ofIndex_eq_error {e : UnknownElement} :
    Findings.ofIndex (indexOf root) (requestedModules d) = .error e ↔ FirstCulprit d root e.name := by
  rw [← @failing_eq_some _ _ e.name, Findings.failing_ofIndex,
    findSome?_ascending (requestedModules_ascending d)]
  simp only [getD_get?_indexOf, mem_requestedModules]
  rfl

/-- The first step of a build that fails, with its error. The premises of each step say that all
earlier steps have succeeded. -/
inductive FirstFailure (b : Builder) (d : Document) (s : Store) : Error → Prop where
  | directory {e : Error} {s' : Store} : d.places ≠ [] →
      Workdir.createOn b.disk b.tempDir b.workRoot? s = .error e s' → FirstFailure b d s e
  | sources {w : Workdir} {e : Error} {s₁ s' : Store} : b.Created d s w s₁ →
      w.prepareOn b.disk (RequestFile.ofDocument d).text b.conf.text s₁ = .error e s' →
      FirstFailure b d s e
  | start {w : Workdir} {e : Error} {s₁ s' : Store} : b.Prepared d s w s₁ →
      b.runner ⟨w.source, w.output, w.path⟩ s₁ = .error e s' → FirstFailure b d s e
  | exitStatus {w : Workdir} {outcome : Outcome} {s' : Store} : b.Ended d s w outcome s' →
      outcome.exitCode? ≠ some 0 →
      FirstFailure b d s (.failed outcome.exitCode? outcome.stderr)
  | missingOutput {w : Workdir} {s' : Store} : b.Succeeded d s w s' →
      s'.isFile w.resultFile = false → FirstFailure b d s (.noOutput w.resultFile)
  | unreadableOutput {w : Workdir} {s' : Store} {e : SystemError} : b.Succeeded d s w s' →
      s'.isFile w.resultFile = true → s'.readText w.resultFile = .error e →
      FirstFailure b d s (.system w.resultFile e)
  | badOutput {w : Workdir} {xml : String} {s' : Store} {e : Xml.Error} : b.Wrote d s w xml s' →
      Xml.parse xml = .error e → FirstFailure b d s (.badOutput e)
  | translation {w : Workdir} {root : Element} {s' : Store} {culprit : String} :
      b.Parsed d s w root s' → FirstCulprit d root culprit →
      FirstFailure b d s (.unknownElement ⟨culprit⟩)

/-- Once Sphinx has succeeded, either a step of reading its output fails, or there are findings. -/
theorem failure_or_findings (hsucceeded : b.Succeeded d s w s₁) :
    (∃ e, b.FirstFailure d s e) ∨ ∃ root t, b.Parsed d s w root s₁ ∧
      Findings.ofIndex (indexOf root) (requestedModules d) = .ok t := by
  -- The output is a file, it can be read, it is a document, and its elements are supported.
  by_cases hfile : s₁.isFile w.resultFile = true
  · cases hread : s₁.readText w.resultFile with
    | error _ => exact Or.inl ⟨_, .unreadableOutput hsucceeded hfile hread⟩
    | ok xml =>
      have hwrote : b.Wrote d s w xml s₁ := ⟨hsucceeded, hfile, hread⟩
      cases hparse : Xml.parse xml with
      | error _ => exact Or.inl ⟨_, .badOutput hwrote hparse⟩
      | ok root =>
        cases hindex : Findings.ofIndex (indexOf root) (requestedModules d) with
        | error _ => exact Or.inl ⟨_, .translation ⟨xml, hwrote, hparse⟩ (ofIndex_eq_error.mp hindex)⟩
        | ok t => exact Or.inr ⟨root, t, ⟨xml, hwrote, hparse⟩, hindex⟩
  · exact Or.inl ⟨_, .missingOutput hsucceeded (Bool.eq_false_iff.mpr hfile)⟩

/-- What reading the output yields if all of it goes well. -/
theorem collect_of_parsed (h : b.Parsed d s w root s') {t : Findings}
    (hindex : Findings.ofIndex (indexOf root) (requestedModules d) = .ok t) :
    collect w (requestedModules d) s' = .ok (t, (indexOf root).dropped) s' := by
  obtain ⟨xml, ⟨-, hfile, hread⟩, hparse⟩ := h
  simp only [indexOf] at hindex
  simp only [collect_eq, readResult_eq, hfile, if_true, hread, Findings.ofOutput, hparse, hindex]

/-- The error of a build is the one of its first failing step. -/
theorem result_of_firstFailure (h : b.FirstFailure d s e) :
    (b.build d s).result = .error e ∧ (b.build d s).document = d := by
  cases h with
  | directory hplaces h => rw [build_of_create_error hplaces h]; exact ⟨rfl, rfl⟩
  | sources hcreated h => rw [build_of_prepare_error hcreated h]; exact ⟨rfl, rfl⟩
  | start hprepared h => rw [build_of_start_error hprepared h]; exact ⟨rfl, rfl⟩
  | exitStatus hended h => rw [build_of_exit hended h]; exact ⟨rfl, rfl⟩
  | @missingOutput w s' hsucceeded hfile =>
    have h : collect w (requestedModules d) s' = .error (.noOutput w.resultFile) s' := by
      simp only [collect_eq, readResult_eq, hfile, Bool.false_eq_true, if_false]
    rw [build_of_collect_error hsucceeded h]
    exact ⟨rfl, rfl⟩
  | @unreadableOutput w s' e hsucceeded hfile hread =>
    have h : collect w (requestedModules d) s' = .error (.system w.resultFile e) s' := by
      simp only [collect_eq, readResult_eq, hfile, if_true, hread]
    rw [build_of_collect_error hsucceeded h]
    exact ⟨rfl, rfl⟩
  | @badOutput w xml s' e hwrote hparse =>
    have h : collect w (requestedModules d) s' = .error (.badOutput e) s' := by
      simp only [collect_eq, readResult_eq, hwrote.2.1, if_true, hwrote.2.2, Findings.ofOutput,
        hparse]
    rw [build_of_collect_error hwrote.1 h]
    exact ⟨rfl, rfl⟩
  | @translation w root s' culprit hparsed hculprit =>
    obtain ⟨xml, hwrote, hparse⟩ := hparsed
    have hindex := (ofIndex_eq_error (e := ⟨culprit⟩)).mpr hculprit
    simp only [indexOf] at hindex
    have h : collect w (requestedModules d) s' = .error (.unknownElement ⟨culprit⟩) s' := by
      simp only [collect_eq, readResult_eq, hwrote.2.1, if_true, hwrote.2.2, Findings.ofOutput,
        hparse, hindex]
    rw [build_of_collect_error hwrote.1 h]
    exact ⟨rfl, rfl⟩

variable (b d s) in
/-- A build either fails in some step, or comes to its end with what it has found, or has nothing to
do. -/
theorem build_cases :
    (∃ e, b.FirstFailure d s e) ∨ d.places = [] ∨
      ∃ w root s' t, b.Parsed d s w root s' ∧
        Findings.ofIndex (indexOf root) (requestedModules d) = .ok t := by
  by_cases hplaces : d.places = []
  · exact Or.inr (Or.inl hplaces)
  -- Step by step: each of them fails, or the next one is reached.
  cases hcreate : Workdir.createOn b.disk b.tempDir b.workRoot? s with
  | error e s' => exact Or.inl ⟨e, .directory hplaces hcreate⟩
  | ok w s₁ =>
    have hcreated : b.Created d s w s₁ := ⟨hplaces, hcreate⟩
    cases hprepare : w.prepareOn b.disk (RequestFile.ofDocument d).text b.conf.text s₁ with
    | error e s' => exact Or.inl ⟨e, .sources hcreated hprepare⟩
    | ok _ s₂ =>
      have hprepared : b.Prepared d s w s₂ := ⟨s₁, hcreated, hprepare⟩
      cases hrun : b.runner ⟨w.source, w.output, w.path⟩ s₂ with
      | error e s' => exact Or.inl ⟨e, .start hprepared hrun⟩
      | ok outcome s₃ =>
        have hended : b.Ended d s w outcome s₃ := ⟨s₂, hprepared, hrun⟩
        by_cases hcode : outcome.exitCode? = some 0
        · rcases failure_or_findings ⟨outcome, hended, hcode⟩ with h | ⟨root, t, hparsed, hindex⟩
          · exact Or.inl h
          · exact Or.inr (Or.inr ⟨w, root, s₃, t, hparsed, hindex⟩)
        · exact Or.inl ⟨_, .exitStatus hended hcode⟩

/-- What a build leaves if all of its steps succeed. -/
theorem build_of_parsed (h : b.Parsed d s w root s') {t : Findings}
    (hindex : Findings.ofIndex (indexOf root) (requestedModules d) = .ok t) :
    b.build d s = ⟨.ok (b.reportOf d w t (indexOf root).dropped), fillDocument t d,
      if b.keepWorkdir then s' else w.remove s'⟩ :=
  build_of_collected (let ⟨_, hwrote, _⟩ := h; hwrote.1) (collect_of_parsed h hindex)

/-- A build fails with the error of its first failing step, and in no other way. -/
theorem result_eq_error_iff : (b.build d s).result = .error e ↔ b.FirstFailure d s e := by
  constructor
  · intro h
    rcases build_cases b d s with ⟨e', hfail⟩ | hplaces | ⟨w, root, s', t, hparsed, hindex⟩
    · rw [(result_of_firstFailure hfail).1] at h
      rwa [← Except.error.inj h]
    · -- In the other two cases the build succeeds.
      rw [build_of_no_places hplaces] at h
      cases h
    · rw [build_of_parsed hparsed hindex] at h
      cases h
  · intro h
    exact (result_of_firstFailure h).1

/-- Once the output is an XML document, only an unsupported element makes the build fail. -/
theorem result_eq_error_iff_of_parsed (h : b.Parsed d s w root s') :
    (b.build d s).result = .error e ↔
      ∃ culprit, e = .unknownElement ⟨culprit⟩ ∧ FirstCulprit d root culprit := by
  constructor
  · intro herror
    cases hindex : Findings.ofIndex (indexOf root) (requestedModules d) with
    | error culprit =>
      have hculprit := ofIndex_eq_error.mp hindex
      rw [(result_of_firstFailure (.translation h hculprit)).1] at herror
      exact ⟨culprit.name, (Except.error.inj herror).symm, hculprit⟩
    | ok t =>
      rw [build_of_parsed h hindex] at herror
      cases herror
  · rintro ⟨culprit, rfl, hculprit⟩
    exact (result_of_firstFailure (.translation h hculprit)).1

/-- A build that succeeds has read an output, unless there was nothing to do. -/
theorem parsed_of_ok (hplaces : d.places ≠ []) {report : Report}
    (hok : (b.build d s).result = .ok report) : ∃ w root s', b.Parsed d s w root s' := by
  rcases build_cases b d s with ⟨e, hfail⟩ | hnone | ⟨w, root, s', t, hparsed, -⟩
  · rw [(result_of_firstFailure hfail).1] at hok
    cases hok
  · exact absurd hnone hplaces
  · exact ⟨w, root, s', hparsed⟩

/-- A build that fails leaves the document as it was. -/
theorem document_of_error (h : (b.build d s).result = .error e) : (b.build d s).document = d :=
  (result_of_firstFailure (result_eq_error_iff.mp h)).2

/-! ## A stand-in for Sphinx -/

/-- A run that writes a text as its output and ends with an exit code. -/
def writing (xml : String) (exitCode : Int) : Runner := fun i => do
  Files.mapError (.system i.output) (Files.createAll i.output)
  Files.mapError (.system i.output) (Files.writeText (i.output.child "index.xml") xml)
  return ⟨some exitCode, i.logs.child "stdout.log", i.logs.child "stderr.log"⟩

/-- A builder whose runs write a text and succeed. -/
def standIn (xml : String) : Builder where
  runner := writing xml 0
  tempDir := ⟨"/tmp"⟩

/-- Files with nothing but a directory for temporary files. -/
def emptyStore : Store where
  entries := [(["tmp"], .directory)]

/-! ## What a build that fails leaves -/

/-- **Atomicity.** A build fails with an error exactly if the error is the one of its first failing
step, and then the document is as before. Once the output is an XML document, the build fails
exactly if a requested module has an unsupported element among its descriptions, and names the first
such element of the first such module. -/
theorem build_atomic (b : Builder) (d : Document) (s : Store) (e : Error) :
    ((b.build d s).result = .error e ↔ b.FirstFailure d s e) ∧
    ((b.build d s).result = .error e → (b.build d s).document = d) ∧
    ∀ w root s', b.Parsed d s w root s' →
      ((b.build d s).result = .error e ↔
        ∃ culprit, e = .unknownElement ⟨culprit⟩ ∧ FirstCulprit d root culprit) :=
  ⟨result_eq_error_iff, document_of_error, fun _ _ _ => result_eq_error_iff_of_parsed⟩

/-- Both modules have an unsupported element here. The directive of `b` comes first and so does its
description, but `a` is looked up first. -/
theorem build_atomic_two_modules :
    let b := standIn ("<d><desc ids=\"module-b\"><figure/></desc>" ++
      "<desc ids=\"module-a\"><paragraph><image/></paragraph><figure/></desc></d>")
    let d := (parse "::automodule[b]\n::automodule[a]\n").1
    b.FirstFailure d emptyStore (.unknownElement ⟨"image"⟩) ∧
      (b.build d emptyStore).document = d := by
  intro b d
  have herror : (b.build d emptyStore).result = .error (.unknownElement ⟨"image"⟩) := by
    decide +kernel
  obtain ⟨hfirst, hdocument, -⟩ := build_atomic b d emptyStore (.unknownElement ⟨"image"⟩)
  exact ⟨hfirst.mp herror, hdocument herror⟩

/-- If the disk has no space for the request file, that is the error, and nothing is left. -/
example :
    let full : Disk := ⟨fun names => if names = ["source", "index.rst"] then some .noSpace else none⟩
    let built := { standIn "<d/>" with disk := full }.build (parse "::automodule[a]\n").1 emptyStore
    built.result = .error (.system ⟨"/tmp/autodoc-000000/source/index.rst"⟩ .noSpace) ∧
      built.store.names ["tmp"] = [] := by
  decide +kernel

end DocWeave.Sphinx.Builder
