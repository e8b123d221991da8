import DocWeave.Proofs.CommandLine.Invariant
import DocWeave.Proofs.Sphinx.StandIn

/-!
# Documents that are built at the same time do not get in each other's way

What comes of each document is what comes of it alone, and in the end the files are the same in whatever
order the steps have been taken.

- `buildOne_outcome`: what comes of a document alone.
- `Invariant.entry?_target`: what the target of a document holds that is done.
- `Invariant.entry?_source`: what a source holds in the end.
- `interleaving_independent`: the steps of documents in any order.
- `interleaving_disturbed`: how documents get in each other's way that are not apart.
-/

namespace DocWeave.CommandLine

open Sphinx (Builder Both)
open Sphinx.Builder (standIn writing)

variable {b : Builder} {format : Format} {dir p q : Path} {sources : List Path} {s t : Store}
  {st st' : State} {m : Location} {result : Except DocumentError (List String)}

/-! ## A document that is done -/

/-- The first two steps for a document without others. -/
theorem run_start_built (hp : p ∈ sources) {text : String} {built : String × List String}
    (hread : s.readText p = .ok text) (hbuild : buildSource b format text s = .ok built t) :
    Run b format dir sources (.start s)
      ⟨t, Function.update (fun _ => .waiting) p (.built built.1 built.2)⟩ := by
  have hfirst := step_update b format dir hp .fresh (fun _ => .waiting) .waiting s
  have hsecond := step_update b format dir hp .fresh (fun _ => .waiting) (.read text) s
  rw [Function.update_eq_self, Progress.step, readSource_eq, hread] at hfirst
  rw [Progress.step, ← buildSource_eq, hbuild] at hsecond
  exact (Relation.ReflTransGen.single hfirst).tail hsecond

/-- What comes of a document alone. -/
theorem buildOne_outcome (h : Apart b format dir sources s) (hp : p ∈ sources) :
    (buildOne b format p (targetOf dir format p) s).outcome =
      (made b format dir s p).map Prod.snd := by
  rw [buildOne_eq, readSource_eq]
  cases hread : s.readText p with
  | error e =>
    rw [made, hread]
    rfl
  | ok text =>
    dsimp only
    cases hbuild : buildSource b format text s with
    | error e t =>
      rw [made, hread]
      dsimp only
      rw [hbuild]
      rfl
    | ok built t =>
      have hnot : ∀ warnings, Function.update (fun _ : Path => Progress.waiting) p
          (.built built.1 built.2) p ≠ .done (.ok warnings) := by
        rw [Function.update_self]
        nofun
      -- The document alone is one run of several, in which the others wait.
      have hst := (Invariant.start h).run h (run_start_built hp hread hbuild)
      have hwrite := hst.writeTarget_eq h hp hnot built.1
      dsimp only at hwrite ⊢
      rw [hwrite, made_of_built hread (by rw [hbuild]; rfl)]
      by_cases hdirectory : s.find? (targetPlace dir format s p) = some .directory
      · rw [if_pos hdirectory, if_pos hdirectory]
        rfl
      · rw [if_neg hdirectory, if_neg hdirectory]
        rfl

namespace Invariant

variable (h : Apart b format dir sources s) (hst : Invariant b format dir sources s st)
include hst

/-- What has come of a document that is done. -/
theorem result_alike (hp : p ∈ sources) (hdone : st.progress p = .done result) :
    Both DocumentError.Alike Eq result ((made b format dir s p).map Prod.snd) := by
  have hfits := hst.fits p hp
  rw [hdone] at hfits
  cases hfits with
  | done halike => exact halike

include h

/-- The target is found where it is written. -/
theorem entry?_targetOf (hp : p ∈ sources) :
    st.store.entry? (targetOf dir format p) = st.store.find? (targetPlace dir format s p) := by
  have hlocate : st.store.locate (targetOf dir format p) = .ok (targetPlace dir format s p) := by
    rw [targetPlace_eq (h.names p hp)]
    exact (hst.reaches h).locate_child (properName_targetName (h.names p hp))
  rw [Store.entry?, hlocate]

/-- What the target holds of a document that is done. -/
theorem entry?_target (hp : p ∈ sources) (hdone : st.progress p = .done result) :
    st.store.entry? (targetOf dir format p) =
      match made b format dir s p with
      | .ok made => some (.file made.1.toUTF8)
      | .error _ => s.find? (targetPlace dir format s p) := by
  have halike := hst.result_alike hp hdone
  rw [hst.entry?_targetOf h hp]
  cases hmade : made b format dir s p with
  | error e =>
    rw [hmade] at halike
    refine hst.find?_target h hp fun warnings hwritten => ?_
    rw [hdone] at hwritten
    cases hwritten
    cases halike
  | ok output =>
    rw [hmade] at halike
    cases halike with
    | ok heq =>
      subst heq
      exact hst.keeps.written _ _ ⟨p, hp, output.1, output.2, hdone, hmade, rfl, rfl⟩

omit h in
/-- In the end, all that could be made is written. -/
theorem written_complete (hcomplete : st.IsComplete sources) {contents : ByteArray} :
    Written b format dir sources s st.progress m contents ↔
      ∃ p ∈ sources, ∃ output warnings, made b format dir s p = .ok (output, warnings) ∧
        targetPlace dir format s p = m ∧ output.toUTF8 = contents := by
  constructor
  · rintro ⟨p, hp, output, warnings, -, hrest⟩
    exact ⟨p, hp, output, warnings, hrest⟩
  · rintro ⟨p, hp, output, warnings, hmade, hrest⟩
    obtain ⟨result, hdone⟩ := hcomplete p hp
    have halike := hst.result_alike hp hdone
    rw [hmade] at halike
    cases halike with
    | ok heq =>
      subst heq
      exact ⟨p, hp, output, _, hdone, hmade, hrest⟩

omit h hst in
theorem ground_complete (b : Builder) (s : Store) (hcomplete : st.IsComplete sources) :
    ground b sources s st.progress = if sources.any (needsSphinx s) then b.opened s else s := by
  -- A document that is done has been built, so only the need for Sphinx is left.
  have hany : (sources.any fun p => needsSphinx s p && (st.progress p).isBuilt) =
      sources.any (needsSphinx s) := by
    rw [Bool.eq_iff_iff, List.any_eq_true, List.any_eq_true]
    refine exists_congr fun p => and_congr_right fun hp => ?_
    obtain ⟨result, hdone⟩ := hcomplete p hp
    rw [hdone, Progress.isBuilt, Bool.and_true]
  unfold ground
  rw [hany]

omit h in
/-- In the end, all places hold the same that are not in working directories. -/
theorem find?_complete (hst' : Invariant b format dir sources s st')
    (hcomplete : st.IsComplete sources) (hcomplete' : st'.IsComplete sources)
    (hm : ¬ b.Workplace s m) : st.store.find? m = st'.store.find? m := by
  have hwritten {contents : ByteArray} :
      Written b format dir sources s st.progress m contents ↔
        Written b format dir sources s st'.progress m contents :=
    (hst.written_complete hcomplete).trans (hst'.written_complete hcomplete').symm
  by_cases hcontents : ∃ contents, Written b format dir sources s st.progress m contents
  · obtain ⟨contents, hcontents⟩ := hcontents
    rw [hst.keeps.written m contents hcontents, hst'.keeps.written m contents (hwritten.mp hcontents)]
  · have hnot := not_exists.mp hcontents
    rw [hst.keeps.elsewhere m hm hnot, ground_complete b s hcomplete,
      hst'.keeps.elsewhere m hm fun contents hc => hnot contents (hwritten.mpr hc),
      ground_complete b s hcomplete']

/-- In the end, a source holds the same in any order. -/
theorem entry?_source (hst' : Invariant b format dir sources s st')
    (hcomplete : st.IsComplete sources) (hcomplete' : st'.IsComplete sources) (hp : p ∈ sources) :
    st.store.entry? p = st'.store.entry? p := by
  -- The source leads through no working directory, where alone the two runs may differ.
  have hsame (m : Location) (hm : m ∈ p.places st.store.current) :
      st.store.find? m = st'.store.find? m := by
    rw [hst.keeps.current] at hm
    exact hst.find?_complete hst' hcomplete hcomplete' (h.outside p hp m hm)
  refine Store.entry?_congr (hst.keeps.current.trans hst'.keeps.current.symm) (fun m hm => ?_) ?_
  · exact Store.kind?_congr (hsame m (List.mem_append_left _ hm))
  · exact hsame _ (List.mem_append_right _ (List.mem_singleton_self _))

omit h in
/-- In the end, some document has failed exactly if one fails alone. -/
theorem any_isFailure (hcomplete : st.IsComplete sources) :
    (st.results dir format sources).any (·.isFailure) = true ↔
      ∃ p ∈ sources, ∃ e, made b format dir s p = .error e := by
  rw [List.any_eq_true]
  constructor
  · rintro ⟨file, hfile, hfailure⟩
    obtain ⟨p, hp, result, hdone, rfl⟩ := State.mem_results.mp hfile
    have halike := hst.result_alike hp hdone
    cases hmade : made b format dir s p with
    | error e => exact ⟨p, hp, e, hmade⟩
    | ok output =>
      rw [hmade] at halike
      cases halike
      cases hfailure
  · rintro ⟨p, hp, e, hmade⟩
    obtain ⟨result, hdone⟩ := hcomplete p hp
    have halike := hst.result_alike hp hdone
    rw [hmade] at halike
    cases halike with
    | error he => exact ⟨_, State.mem_results.mpr ⟨p, hp, _, hdone, rfl⟩, rfl⟩

end Invariant

/-- If a document fails, so does the run of the command. -/
theorem exitCode_replyFiles (outputDir : Path) (files : List FileResult) (s : Store) :
    (replyFiles outputDir files s).exitCode = if files.any (·.isFailure) then 1 else 0 := by
  unfold replyFiles
  dsimp only
  split <;> rfl

/-! ## Any order -/

/-- **Independence.** Documents are built at the same time; their steps are taken in any order. No
target is the target of another source or another source. In the end, what has come of each document
and what its target holds is what comes of it alone; a document that fails leaves its target as it was.
The command fails exactly if some document fails alone. The order makes no difference to what the
sources and the targets hold, and one document after the other is one such order. -/
theorem interleaving_independent (h : Apart b format dir sources s) :
    (∀ p ∈ sources, ∀ q ∈ sources, p ≠ q →
      (targetOf dir format p).goal s.current ≠ (targetOf dir format q).goal s.current ∧
      p.goal s.current ≠ (targetOf dir format q).goal s.current) ∧
    (∀ targets, targetsOf dir format sources = .ok targets →
      ∃ st, Run b format dir sources (.start s) st ∧ st.IsComplete sources ∧
        (st.results dir format sources, st.store) = buildEach b format (sources.zip targets) s) ∧
    ∀ st, Run b format dir sources (.start s) st → st.IsComplete sources →
      (∀ p ∈ sources,
        let target := targetOf dir format p
        let alone := buildOne b format p target s
        (∃ result, st.progress p = .done result ∧
          Both DocumentError.Alike Eq result alone.outcome) ∧
        st.store.entry? target = alone.store.entry? target ∧
        (∀ e, alone.outcome = .error e → st.store.entry? target = s.entry? target)) ∧
      ((replyFiles dir (st.results dir format sources) st.store).exitCode ≠ 0 ↔
        ∃ p ∈ sources, ∃ e, (buildOne b format p (targetOf dir format p) s).outcome = .error e) ∧
      ∀ st', Run b format dir sources (.start s) st' → st'.IsComplete sources → ∀ p ∈ sources,
        st.store.entry? p = st'.store.entry? p ∧
        st.store.entry? (targetOf dir format p) = st'.store.entry? (targetOf dir format p) := by
  have hstart := Invariant.start h
  refine ⟨fun p hp q hq hne => ?_, fun targets htargets => ?_, fun st hrun hcomplete => ?_⟩
  · obtain ⟨targets, hplanned⟩ := h.planned
    exact ⟨goal_target_ne_goal_target hplanned h.names hp hq hne,
      goal_source_ne_goal_target hplanned h.names hp hq hne⟩
  · -- The targets are told by the sources, so the pairs of both are as well.
    obtain ⟨rfl, hnodup, -⟩ := targets_of_ok htargets
    obtain ⟨st, hrun, hresults, hcomplete, -⟩ :=
      run_buildEach b format dir (List.Subset.refl sources) hnodup (.start s) fun _ _ => rfl
    refine ⟨st, hrun, hcomplete, hresults.trans ?_⟩
    rw [List.map_prod_left_eq_zip]
    rfl
  · have hst := hstart.run h hrun
    refine ⟨fun p hp => ?_, ?_, fun st' hrun' hcomplete' p hp => ?_⟩
    · obtain ⟨result, hdone⟩ := hcomplete p hp
      have houtcome := buildOne_outcome h hp
      -- Building the document alone is a run too, and the invariant says the same of its target.
      have halone := hstart.run h (run_buildOne hp rfl)
      have hentry := hst.entry?_target h hp hdone
      refine ⟨⟨result, hdone, ?_⟩, hentry.trans ?_, fun e he => hentry.trans ?_⟩
      · rw [houtcome]
        exact hst.result_alike hp hdone
      · exact (halone.entry?_target h hp (Function.update_self _ _ _)).symm
      · have hbefore := hstart.entry?_targetOf h hp
        rw [houtcome] at he
        cases hmade : made b format dir s p with
        | error _ => exact hbefore.symm
        | ok _ =>
          rw [hmade] at he
          cases he
    · have hfailed : (∃ p ∈ sources, ∃ e, (buildOne b format p (targetOf dir format p) s).outcome =
          .error e) ↔ ∃ p ∈ sources, ∃ e, made b format dir s p = .error e := by
        refine exists_congr fun p => and_congr_right fun hp => exists_congr fun e => ?_
        rw [buildOne_outcome h hp]
        cases made b format dir s p with
        | error e' => rw [Except.map, Except.error.injEq, Except.error.injEq]
        | ok output => exact ⟨nofun, nofun⟩
      rw [hfailed, ← hst.any_isFailure hcomplete, exitCode_replyFiles]
      cases (st.results dir format sources).any (·.isFailure) <;> decide
    · have hst' := hstart.run h hrun'
      obtain ⟨result, hdone⟩ := hcomplete p hp
      obtain ⟨result', hdone'⟩ := hcomplete' p hp
      refine ⟨hst.entry?_source h hst' hcomplete hcomplete' hp, ?_⟩
      exact (hst.entry?_target h hp hdone).trans (hst'.entry?_target h hp hdone').symm

/-- Files with one document that asks for a module, and room for what is written. -/
def oneDocument : Store where
  entries := [(["tmp"], .directory), (["build"], .directory),
    (["a.md"], .file "::automodule[m]\n".toUTF8)]

/-- Of two documents, one is built by Sphinx, and the other one is missing. In whatever order the steps
are taken, the first one is written and the command fails. -/
theorem interleaving_independent_missing :
    let b := standIn "<d><desc ids=\"module-m\">x</desc></d>"
    let sources : List Path := [⟨"a.md"⟩, ⟨"b.md"⟩]
    Apart b .html ⟨"build"⟩ sources oneDocument ∧
    ∀ st, Run b .html ⟨"build"⟩ sources (.start oneDocument) st → st.IsComplete sources →
      (replyFiles ⟨"build"⟩ (st.results ⟨"build"⟩ .html sources) st.store).exitCode ≠ 0 ∧
      st.store.entry? ⟨"build/b.html"⟩ = none ∧
      st.store.entry? ⟨"build/a.html"⟩ =
        some (.file "<div class=\"autodoc\" data-module=\"m\"><div>x</div></div>\n".toUTF8) := by
  intro b sources
  have hapart : Apart b .html ⟨"build"⟩ sources oneDocument := by
    refine { closed := Store.closed_of_entries (by decide +kernel), current := Store.find?_nil _,
             reached := ⟨rfl, by decide +kernel⟩, runner := Sphinx.writing_confined _ _,
             names := by decide +kernel, planned := ⟨_, rfl⟩, root := by decide +kernel,
             final := nofun, opened := fun _ _ => rfl, way := by decide +kernel, outside := ?_ }
    rintro p hp m hm ⟨s₁, hopen, l, n, hreaches, -, hbelow⟩
    cases hopen
    obtain rfl : l = ["tmp"] := hreaches.leads.symm.trans (by decide +kernel)
    -- No source leads to a place as deep as a working directory.
    have hshort : ∀ p ∈ sources, ∀ m ∈ p.places oneDocument.current, m.length ≤ 1 := by
      decide +kernel
    have hlength := hbelow.length_le.trans (hshort p hp m hm)
    simp at hlength
  refine ⟨hapart, fun st hrun hcomplete => ?_⟩
  have ha : (⟨"a.md"⟩ : Path) ∈ sources := List.mem_cons_self
  have hb : (⟨"b.md"⟩ : Path) ∈ sources := List.mem_cons_of_mem _ List.mem_cons_self
  obtain ⟨-, -, hany⟩ := interleaving_independent hapart
  obtain ⟨hdocuments, hexit, -⟩ := hany st hrun hcomplete
  have hmissing : (buildOne b .html ⟨"b.md"⟩ (targetOf ⟨"build"⟩ .html ⟨"b.md"⟩) oneDocument).outcome =
      .error (.file ⟨"b.md"⟩ .notFound) := by
    decide +kernel
  refine ⟨hexit.mpr ⟨_, hb, _, hmissing⟩, ?_, ?_⟩
  · exact ((hdocuments _ hb).2.2 _ hmissing).trans (by decide +kernel)
  · exact (hdocuments _ ha).2.1.trans (by decide +kernel)

/-! ## Documents that get in each other's way -/

/-- In some order, what comes of a document is not what comes of it alone. -/
def Disturbed (b : Builder) (format : Format) (dir : Path) (sources : List Path) (s : Store)
    (p : Path) : Prop :=
  ∃ st result, Run b format dir sources (.start s) st ∧ st.IsComplete sources ∧
    st.progress p = .done result ∧
    ¬ Both DocumentError.Alike Eq result (buildOne b format p (targetOf dir format p) s).outcome

/-- Neither the output directory nor the directory for working directories is at or below a source or a
target. -/
def Clear (b : Builder) (format : Format) (dir : Path) (sources : List Path) (s : Store) : Prop :=
  ∀ p ∈ sources, ∀ m ∈ [p.goal s.current, targetPlace dir format s p],
    ¬ m <+: dir.goal s.current ∧ ¬ m <+: b.root.goal s.current

instance : Decidable (Clear b format dir sources s) :=
  inferInstanceAs (Decidable (∀ p ∈ sources, ∀ m ∈ [p.goal s.current, targetPlace dir format s p],
    ¬ m <+: dir.goal s.current ∧ ¬ m <+: b.root.goal s.current))

/-- What comes of a document after another one, and what comes of it alone. -/
def afterAndAlone (b : Builder) (format : Format) (dir : Path) (s : Store) (p q : Path) :
    Except DocumentError (List String) × Except DocumentError (List String) :=
  ((buildOne b format q (targetOf dir format q)
      (buildOne b format p (targetOf dir format p) s).store).outcome,
    (buildOne b format q (targetOf dir format q) s).outcome)

theorem disturbed_of_second (hne : p ≠ q) {e e' : Except DocumentError (List String)}
    (heq : afterAndAlone b format dir s p q = (e, e')) (h : ¬ Both DocumentError.Alike Eq e e') :
    Disturbed b format dir [p, q] s q := by
  obtain ⟨hsecond, halone⟩ := Prod.mk.inj heq
  have hq : q ∈ [p, q] := List.mem_cons_of_mem _ List.mem_cons_self
  have hnodup : [p, q].Nodup := List.nodup_cons.mpr ⟨by simpa using hne, List.nodup_singleton q⟩
  obtain ⟨st, hrun, hresults, hcomplete, -⟩ :=
    run_buildEach b format dir (List.Subset.refl [p, q]) hnodup (.start s) fun _ _ => rfl
  obtain ⟨result, hdone⟩ := hcomplete q hq
  refine ⟨st, result, hrun, hcomplete, hdone, ?_⟩
  have hmem : ⟨q, targetOf dir format q, result⟩ ∈ st.results dir format [p, q] :=
    State.mem_results.mpr ⟨q, hq, result, hdone, rfl⟩
  rw [List.map_cons, buildEach_cons, List.map_singleton, buildEach_cons, buildEach] at hresults
  rw [(Prod.mk.inj hresults).1] at hmem
  have hresult : result = e := by
    rcases List.mem_cons.mp hmem with heq | hmem
    · exact absurd (FileResult.mk.inj heq).1 hne.symm
    · exact (FileResult.mk.inj (List.mem_singleton.mp hmem)).2.2.trans hsecond
  rw [hresult, halone]
  exact h

/-- Files with documents, of which two ask for a module, and with room for what is written. -/
def someDocuments : Store where
  entries := [(["tmp"], .directory), (["build"], .directory), (["f"], .file "".toUTF8),
    (["a.md"], .file "::automodule[m]\n".toUTF8), (["b.md"], .file "".toUTF8),
    (["c.md"], .file "::automodule[m]\n".toUTF8), (["d.md"], .file "".toUTF8)]

theorem planned_someDocuments {xml : String} (hrunner : b.runner = writing xml 0)
    (hnames : ∀ p ∈ sources, p.name?.isSome)
    (hplanned : ∃ targets, targetsOf ⟨"build"⟩ format sources = .ok targets) :
    Planned b format ⟨"build"⟩ sources someDocuments where
  closed := Store.closed_of_entries (by decide +kernel)
  current := Store.find?_nil _
  reached := ⟨rfl, by decide +kernel⟩
  runner := hrunner ▸ Sphinx.writing_confined xml 0
  names := hnames
  planned := hplanned

/-- The first of two documents disturbs the second one, although the output directory and the one for
working directories are clear of both. In turn: a source is reached through the target of the other one;
it is reached through the directory for working directories; this directory cannot be created, but a
part of its path is there when it is tried again; its path leads through a target; and a source is
reached through a working directory that is kept. -/
theorem interleaving_disturbed :
    let b := standIn "<d/>"
    let work (root : String) : Builder := { b with workRoot? := some ⟨root⟩ }
    let disturbed (b : Builder) (p q : Path) : Prop :=
      Planned b .html ⟨"build"⟩ [p, q] someDocuments ∧
      Clear b .html ⟨"build"⟩ [p, q] someDocuments ∧
      Disturbed b .html ⟨"build"⟩ [p, q] someDocuments q
    disturbed b ⟨"d.md"⟩ ⟨"build/d.html/b.md"⟩ ∧
      disturbed (work "work") ⟨"a.md"⟩ ⟨"work/../b.md"⟩ ∧
      disturbed (work "x/../f/y") ⟨"a.md"⟩ ⟨"c.md"⟩ ∧
      disturbed (work "build/d.html/../work") ⟨"d.md"⟩ ⟨"c.md"⟩ ∧
      disturbed { b with keepWorkdir := true } ⟨"a.md"⟩ ⟨"tmp/autodoc-000000/../../b.md"⟩ := by
  intro b work disturbed
  have hfile {p : Path} {e e' : SystemError} (hne : e ≠ e') :
      ¬ Both DocumentError.Alike Eq (Except.error (.file p e) : Except _ (List String))
        (.error (.file p e')) := by
    intro h
    cases h with
    | error h =>
      cases h
      exact hne rfl
  have hsystem {p : Path} {e e' : SystemError} (hne : e ≠ e') :
      ¬ Both DocumentError.Alike Eq (Except.error (.build (.system p e)) : Except _ (List String))
        (.error (.build (.system p e'))) := by
    intro h
    cases h with
    | error h =>
      cases h with
      | build h => cases h <;> exact hne rfl
  have htarget : afterAndAlone b .html ⟨"build"⟩ someDocuments ⟨"d.md"⟩ ⟨"build/d.html/b.md"⟩ =
      (.error (.file ⟨"build/d.html/b.md"⟩ .notDirectory),
        .error (.file ⟨"build/d.html/b.md"⟩ .notFound)) := by
    decide +kernel
  have hroot : afterAndAlone (work "work") .html ⟨"build"⟩ someDocuments ⟨"a.md"⟩ ⟨"work/../b.md"⟩ =
      (.ok [], .error (.file ⟨"work/../b.md"⟩ .notFound)) := by
    decide +kernel
  have hagain : afterAndAlone (work "x/../f/y") .html ⟨"build"⟩ someDocuments ⟨"a.md"⟩ ⟨"c.md"⟩ =
      (.error (.build (.system ⟨"x/../f/y"⟩ .notDirectory)),
        .error (.build (.system ⟨"x/../f/y"⟩ .alreadyExists))) := by
    decide +kernel
  have hway : afterAndAlone (work "build/d.html/../work") .html ⟨"build"⟩ someDocuments ⟨"d.md"⟩
      ⟨"c.md"⟩ = (.error (.build (.system ⟨"build/d.html/../work"⟩ .notDirectory)),
        .ok ["module 'm' not found in Sphinx output"]) := by
    decide +kernel
  have hkept : afterAndAlone { b with keepWorkdir := true } .html ⟨"build"⟩ someDocuments ⟨"a.md"⟩
      ⟨"tmp/autodoc-000000/../../b.md"⟩ =
        (.ok [], .error (.file ⟨"tmp/autodoc-000000/../../b.md"⟩ .notFound)) := by
    decide +kernel
  refine ⟨⟨planned_someDocuments rfl (by decide +kernel) ⟨_, rfl⟩, by decide +kernel, ?_⟩,
    ⟨planned_someDocuments rfl (by decide +kernel) ⟨_, rfl⟩, by decide +kernel, ?_⟩,
    ⟨planned_someDocuments rfl (by decide +kernel) ⟨_, rfl⟩, by decide +kernel, ?_⟩,
    ⟨planned_someDocuments rfl (by decide +kernel) ⟨_, rfl⟩, by decide +kernel, ?_⟩,
    ⟨planned_someDocuments rfl (by decide +kernel) ⟨_, rfl⟩, by decide +kernel, ?_⟩⟩
  · exact disturbed_of_second (by decide) htarget (hfile (by decide))
  · exact disturbed_of_second (by decide) hroot nofun
  · exact disturbed_of_second (by decide) hagain (hsystem (by decide))
  · exact disturbed_of_second (by decide) hway nofun
  · exact disturbed_of_second (by decide) hkept nofun

end DocWeave.CommandLine
