import DocWeave.Proofs.Sphinx.Atomicity
import DocWeave.Proofs.Sphinx.Confined

/-!
# A stand-in for Sphinx keeps to its working directory

The stand-in creates the directory for the output, if it is not there, and writes a text into it.

- `writing_eq`: what it does, by what the working directory holds.
- `writing_confined`: it touches nothing else, and nothing else matters to it.
-/

namespace DocWeave.Sphinx

open Builder (writing)

variable {s t : Store} {l m : Location} {w : Workdir} {xml : String} {code : Int}

/-- A directory is created in one that is there, unless it is there as well. -/
theorem createAll_child {p : Path} {name : String} (h : s.Reaches p l) (hname : ProperName name) :
    Files.createAll (p.child name) s =
      match s.find? (l ++ [name]) with
      | none => .ok () (s.put (l ++ [name]) .directory)
      | some .directory => .ok () s
      | some (.file _) => .error .alreadyExists s := by
  have htext := Path.text_child_ne hname (p := p)
  have hthere : s.isDirectory (p.child name) =
      decide (s.find? (l ++ [name]) = some .directory) := by
    rw [Store.isDirectory, Store.entry?, h.locate_child hname]
  obtain ⟨parents, hancestors⟩ := Path.ancestors_eq_cons (p.child name)
  -- What is in the place decides: nothing, a directory, or a file that stands in the way.
  cases hentry : s.find? (l ++ [name]) with
  | none =>
    unfold Files.createAll
    rw [hancestors, Files.createChain_cons, if_neg htext, Files.createOrFind,
      createDirectory_child h hname hentry]
    rfl
  | some e =>
    -- Creating it fails in both cases, which does not matter if it is a directory.
    rw [hentry] at hthere
    cases e with
    | directory => exact Files.createAll_of_isDirectory fun _ => hthere
    | file contents =>
      have hcreate : Files.createDirectory (p.child name) s = .error .alreadyExists s := by
        rw [Files.createDirectory_eq, if_neg htext, h.walk_child hname]
        dsimp only
        rw [hentry]
      have hfound : (Files.createDirectory (p.child name) s).outcome ≠ .error .notFound := by
        intro hmissing
        rw [hcreate] at hmissing
        cases hmissing
      unfold Files.createAll
      rw [hancestors, Files.createChain_cons, if_neg htext, if_neg hfound, Files.createOrFind, hcreate,
        Files.createChain.orDirectory, hthere]
      rfl

/-- The name of the first log names a file in the working directory itself. -/
theorem properName_stdout : ProperName "stdout.log" := by decide

theorem properName_stderr : ProperName "stderr.log" := by decide

/-- The store with a directory for the output. -/
def withBuild (s : Store) (l : Location) : Store :=
  if s.find? (l ++ ["build"]) = none then s.put (l ++ ["build"]) .directory else s

/-- Only the directory for the output is new. -/
theorem find?_withBuild (s : Store) (l rest : Location) : (withBuild s l).find? (l ++ rest) =
    if s.find? (l ++ ["build"]) = none ∧ rest = ["build"] then some .directory
    else s.find? (l ++ rest) := by
  unfold withBuild
  by_cases hfree : s.find? (l ++ ["build"]) = none
  · rw [if_pos hfree, Store.find?_put (by simp)]
    simp only [List.append_cancel_left_eq, hfree, true_and]
  · rw [if_neg hfree, if_neg fun h => hfree h.1]

variable (xml code w s) in
/-- The stand-in creates the directory and writes the text, and reports either failure under the path of
the output. -/
theorem writing_steps : writing xml code w.toRun s =
    match Files.createAll w.output s with
    | .error e s => .error (.system w.output e) s
    | .ok _ s =>
      match Files.writeText (w.output.child "index.xml") xml s with
      | .error e s => .error (.system w.output e) s
      | .ok _ s => .ok ⟨some code, w.path.child "stdout.log", w.path.child "stderr.log"⟩ s := by
  unfold writing Workdir.toRun
  rw [Files.bind_apply, Files.mapError]
  dsimp only
  cases Files.createAll w.output s with
  | error e s => rfl
  | ok _ s =>
    dsimp only
    rw [Files.bind_apply, Files.mapError]
    cases Files.writeText (w.output.child "index.xml") xml s <;> rfl

/-- The directory for the output is created, if there is nothing in its place. -/
theorem createAll_output {p : Path} (h : s.Reaches p l) :
    Files.createAll (Workdir.mk p).output s =
      if (withBuild s l).find? (l ++ ["build"]) ≠ some .directory then .error .alreadyExists s
      else .ok () (withBuild s l) := by
  rw [Workdir.output, createAll_child h properName_build, find?_withBuild]
  unfold withBuild
  cases hentry : s.find? (l ++ ["build"]) with
  | none => rfl
  | some e => cases e <;> simp

/-- The output is written into its directory, if there is no directory in its place. -/
theorem writeText_output {p : Path} (h : s.Reaches p l)
    (hthere : (withBuild s l).find? (l ++ ["build"]) = some .directory) :
    Files.writeText ((Workdir.mk p).output.child "index.xml") xml (withBuild s l) =
      if (withBuild s l).find? (l ++ ["build", "index.xml"]) = some .directory then
        .error .isDirectory (withBuild s l)
      else .ok () ((withBuild s l).put (l ++ ["build", "index.xml"]) (.file xml.toUTF8)) := by
  have hreaches : (withBuild s l).Reaches p l := by
    unfold withBuild
    split
    · exact h.put (by simp) fun _ => rfl
    · exact h
  have hbuild := hreaches.child properName_build hthere
  rw [Files.writeText, Files.write_eq, Workdir.output, hbuild.locate_child properName_xml,
    List.append_assoc]
  rfl

/-- What the stand-in does. It fails if there is a file where it needs a directory, or a directory where
it needs a file. -/
theorem writing_eq {p : Path} (h : s.Reaches p l) : writing xml code (Workdir.mk p).toRun s =
    if (withBuild s l).find? (l ++ ["build"]) ≠ some .directory then
      .error (.system (Workdir.mk p).output .alreadyExists) s
    else if (withBuild s l).find? (l ++ ["build", "index.xml"]) = some .directory then
      .error (.system (Workdir.mk p).output .isDirectory) (withBuild s l)
    else .ok ⟨some code, p.child "stdout.log", p.child "stderr.log"⟩
      ((withBuild s l).put (l ++ ["build", "index.xml"]) (.file xml.toUTF8)) := by
  show writing xml code (Workdir.mk p).toRun s = _
  rw [writing_steps, createAll_output h]
  by_cases hthere : (withBuild s l).find? (l ++ ["build"]) = some .directory
  · rw [if_neg (not_not_intro hthere), if_neg (not_not_intro hthere)]
    dsimp only
    rw [writeText_output h hthere]
    by_cases hxml : (withBuild s l).find? (l ++ ["build", "index.xml"]) = some .directory
    · rw [if_pos hxml, if_pos hxml]
    · rw [if_neg hxml, if_neg hxml]
  · rw [if_pos hthere, if_pos hthere]

/-- What is put into two places that hold the same. -/
theorem Twin.put (h : Twin l m s t) {rest : Location} (hrest : rest ≠ []) (e : Entry) :
    Twin l m (s.put (l ++ rest) e) (t.put (m ++ rest) e) := by
  intro other
  rw [Store.find?_put (by simp [hrest]), Store.find?_put (by simp [hrest]), h other]
  simp only [List.append_cancel_left_eq]

/-- Both places get the directory, or neither needs it. -/
theorem Twin.withBuild (h : Twin l m s t) : Twin l m (withBuild s l) (withBuild t m) := by
  unfold Sphinx.withBuild
  rw [h ["build"]]
  split
  · exact h.put (List.cons_ne_nil _ _) _
  · exact h

theorem withBuild_closed (hs : s.Closed) (hl : s.find? l = some .directory) :
    (withBuild s l).Closed := by
  unfold withBuild
  split
  · refine hs.put (by simp) ?_ fun _ => rfl
    rwa [List.dropLast_concat]
  · exact hs

theorem withBuild_frame (hm : l <+: m → m = l) : (withBuild s l).find? m = s.find? m := by
  unfold withBuild
  split
  · -- A place outside is not below the working directory.
    have hother : m ≠ l ++ ["build"] := by
      rintro rfl
      have hself := hm (List.prefix_append _ _)
      simp at hself
    rw [Store.find?_put (by simp), if_neg hother]
  · rfl

variable (xml code) in
/-- The stand-in changes to no other directory. -/
theorem writing_current (i : Run) (s : Store) : (writing xml code i s).store.current = s.current := by
  have hcreate := (Files.createAll_grown i.output s).current
  unfold writing
  rw [Files.bind_apply, Files.mapError]
  cases hs : Files.createAll i.output s with
  | error e s' =>
    rw [hs] at hcreate
    exact hcreate
  | ok _ s' =>
    rw [hs] at hcreate
    dsimp only
    rw [Files.bind_apply, Files.mapError, Files.writeText, Files.write_eq]
    cases s'.locate (i.output.child "index.xml") with
    | error e => exact hcreate
    | ok l =>
      dsimp only
      by_cases hl : s'.find? l = some .directory
      · rw [if_pos hl]
        exact hcreate
      · rw [if_neg hl]
        exact hcreate

/-- In working directories that hold the same, the stand-in does the same. -/
theorem writing_twin {base : Path} {n n' : Nat} (hs : s.Reaches (base.child (workdirName n)) l)
    (ht : t.Reaches (base.child (workdirName n')) m) (h : Twin l m s t) :
    Both Error.Alike Outcome.Alike
        (writing xml code (Workdir.mk (base.child (workdirName n))).toRun s).outcome
        (writing xml code (Workdir.mk (base.child (workdirName n'))).toRun t).outcome ∧
      Twin l m (writing xml code (Workdir.mk (base.child (workdirName n))).toRun s).store
        (writing xml code (Workdir.mk (base.child (workdirName n'))).toRun t).store := by
  have houtput : PathAlike (Workdir.mk (base.child (workdirName n))).output
      (Workdir.mk (base.child (workdirName n'))).output := child_alike base n n' properName_build
  have hbuild := h.withBuild
  -- Both runs ask the same questions about their working directories, and get the same answers.
  rw [writing_eq hs, writing_eq ht, hbuild ["build"], hbuild ["build", "index.xml"]]
  split
  · exact ⟨.error (.system houtput _), h⟩
  · split
    · exact ⟨.error (.system houtput _), hbuild⟩
    · dsimp only [EStateM.Result.outcome, EStateM.Result.store]
      refine ⟨.ok ?_, hbuild.put (List.cons_ne_nil _ _) _⟩
      constructor <;> dsimp only
      · exact child_alike base n n' properName_stdout
      · exact child_alike base n n' properName_stderr

variable (xml code) in
/-- The stand-in keeps to its working directory. -/
theorem writing_confined : (writing xml code).Confined where
  current := writing_current xml code
  frame {w s l m} hreaches hm := by
    have hother : m ≠ l ++ ["build", "index.xml"] := by
      rintro rfl
      have hself := hm (List.prefix_append _ _)
      simp at hself
    rw [writing_eq hreaches]
    split
    · rfl
    · split
      · exact withBuild_frame hm
      · exact (Store.find?_put (by simp) _).trans ((if_neg hother).trans (withBuild_frame hm))
  closed {w s l} hs hreaches := by
    have hclosed := withBuild_closed hs hreaches.directory
    rw [writing_eq hreaches]
    split
    · exact hs
    · split
      · exact hclosed
      · rename_i hthere hfree
        -- The text is written into the directory for the output, and takes the place of no directory.
        refine hclosed.put (by simp) ?_ fun hdirectory => absurd hdirectory hfree
        rw [List.dropLast_append_of_ne_nil (List.cons_ne_nil _ _)]
        exact not_not.mp hthere
  twin hs ht htwin := writing_twin hs ht htwin

end DocWeave.Sphinx
