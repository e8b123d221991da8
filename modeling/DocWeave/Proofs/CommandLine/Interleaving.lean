import DocWeave.CommandLine.Run
import DocWeave.Proofs.Sphinx.Naming
import Mathlib.Logic.Function.Basic
import Mathlib.Logic.Relation

/-!
# Building documents at the same time

Where documents are built at the same time, the steps for one document come between the steps for
others. Each document is still read first, then built, then written; a working directory gets some name
that is not in use at that time.

- `Progress`: how far a document is; `Progress.step`: its next step.
- `Step`, `Run`: the steps of all documents in any order.
- `run_buildOne`: the steps for one document without others in between.
- `run_buildEach`: building one document after the other is one way to take the steps.
-/

namespace DocWeave.CommandLine

open Sphinx (Builder Naming)

variable {b : Builder} {format : Format} {dir p q : Path} {sources rest : List Path} {s t : Store}
  {c : Naming} {text output : String} {warnings : List String}

/-! ## Steps -/

/-- What a build yields: the text of the document in a format, and the warnings. -/
def yielded (format : Format) (warnings : List String) (built : Sphinx.Built) :
    EStateM.Result DocumentError Store (String × List String) :=
  match built.result with
  | .error e => .error (.build e) built.store
  | .ok report => .ok (render format built.document, warnings ++ report.warnings) built.store

/-- Builds the document of a source, with any naming of working directories. -/
def buildSourceWith (c : Naming) (b : Builder) (format : Format) (text : String) :
    Action DocumentError (String × List String) := fun s =>
  yielded format ((Page.parse text).2.map (·.message)) (b.buildWith c (Page.parse text).1 s)

theorem buildSource_eq (b : Builder) (format : Format) (text : String) :
    buildSource b format text = buildSourceWith .fresh b format text := by
  funext s
  have hyielded : buildSource b format text s =
      yielded format ((Page.parse text).2.map (·.message)) (b.build (Page.parse text).1 s) := rfl
  rw [hyielded, Builder.build_eq]
  rfl

/-- How far a document is. -/
inductive Progress where
  | waiting
  | read (text : String)
  | built (output : String) (warnings : List String)
  | done (result : Except DocumentError (List String))

namespace Progress

/-- How far a document is after a step: if the step has failed, nothing more is to be done. -/
def after {α : Type} (next : α → Progress) :
    EStateM.Result DocumentError Store α → Progress × Store
  | .ok a s => (next a, s)
  | .error e s => (.done (.error e), s)

/-- The next step of a document. -/
def step (c : Naming) (b : Builder) (format : Format) (source target : Path) :
    Progress → Store → Progress × Store
  | .waiting, s => after .read (readSource source s)
  | .read text, s => after (fun made => .built made.1 made.2) (buildSourceWith c b format text s)
  | .built output warnings, s => after (fun _ => .done (.ok warnings)) (writeTarget target output s)
  | .done result, s => (.done result, s)

/-- Whether a document has been built, or has failed before. -/
def isBuilt : Progress → Bool
  | .waiting | .read _ => false
  | .built _ _ | .done _ => true

end Progress

/-- The files, and how far each document is. -/
structure State where
  store : Store
  progress : Path → Progress

namespace State

/-- No document has been read. -/
def start (s : Store) : State :=
  ⟨s, fun _ => .waiting⟩

/-- One document takes its next step. -/
def advance (c : Naming) (b : Builder) (format : Format) (dir source : Path) (st : State) : State :=
  let next := (st.progress source).step c b format source (targetOf dir format source) st.store
  ⟨next.2, Function.update st.progress source next.1⟩

/-- All documents are done. -/
def IsComplete (sources : List Path) (st : State) : Prop :=
  ∀ p ∈ sources, ∃ result, st.progress p = .done result

/-- What came of the documents that are done. -/
def results (dir : Path) (format : Format) (sources : List Path) (st : State) : List FileResult :=
  sources.filterMap fun p =>
    match st.progress p with
    | .done result => some ⟨p, targetOf dir format p, result⟩
    | _ => none

end State

theorem State.mem_results {file : FileResult} {st : State} :
    file ∈ st.results dir format sources ↔
      ∃ p ∈ sources, ∃ result, st.progress p = .done result ∧
        ⟨p, targetOf dir format p, result⟩ = file := by
  refine List.mem_filterMap.trans (exists_congr fun p => and_congr_right fun _ => ?_)
  cases st.progress p <;> simp

/-- Some document takes its next step. -/
inductive Step (b : Builder) (format : Format) (dir : Path) (sources : List Path) :
    State → State → Prop
  | advance (st : State) (c : Naming) {source : Path} (h : source ∈ sources) :
    Step b format dir sources st (st.advance c b format dir source)

/-- Documents take steps, in any order. -/
abbrev Run (b : Builder) (format : Format) (dir : Path) (sources : List Path) :
    State → State → Prop :=
  Relation.ReflTransGen (Step b format dir sources)

/-! ## One document after the other -/

/-- The steps of one document, each left out if one before it has failed. -/
theorem buildOne_eq (b : Builder) (format : Format) (source target : Path) (s : Store) :
    buildOne b format source target s =
      match readSource source s with
      | .error e s => .error e s
      | .ok text s =>
        match buildSource b format text s with
        | .error e s => .error e s
        | .ok made s =>
          match writeTarget target made.1 s with
          | .error e s => .error e s
          | .ok _ s => .ok made.2 s := by
  unfold buildOne
  rw [Files.bind_apply]
  cases readSource source s with
  | error e s => rfl
  | ok text s =>
    dsimp only
    rw [Files.bind_apply]
    cases buildSource b format text s with
    | error e s => rfl
    | ok made s =>
      dsimp only
      rw [Files.bind_apply]
      cases writeTarget target made.1 s <;> rfl

variable (b format dir) in
/-- A document that takes its next step. -/
theorem step_update (hp : p ∈ sources) (c : Naming) (progress : Path → Progress) (now : Progress)
    (s : Store) :
    Step b format dir sources ⟨s, Function.update progress p now⟩
      ⟨(now.step c b format p (targetOf dir format p) s).2,
        Function.update progress p (now.step c b format p (targetOf dir format p) s).1⟩ := by
  have hadvance : Step b format dir sources ⟨s, Function.update progress p now⟩ _ :=
    .advance _ c hp
  unfold State.advance at hadvance
  dsimp only at hadvance
  rwa [Function.update_self, Function.update_idem] at hadvance

/-- The steps of a document without steps of others in between. -/
theorem run_buildOne (hp : p ∈ sources) {st : State} (hwaiting : st.progress p = .waiting) :
    Run b format dir sources st
      ⟨(buildOne b format p (targetOf dir format p) st.store).store, Function.update st.progress p
        (.done (buildOne b format p (targetOf dir format p) st.store).outcome)⟩ := by
  obtain ⟨s, progress⟩ := st
  have hstart : Function.update progress p .waiting = progress :=
    (congrArg _ hwaiting.symm).trans (Function.update_eq_self p progress)
  have hread := step_update b format dir hp .fresh progress .waiting s
  rw [hstart, Progress.step] at hread
  refine .head hread ?_
  rw [buildOne_eq]
  cases readSource p s with
  | error e s => exact .refl
  | ok text s =>
    have hbuild := step_update b format dir hp .fresh progress (.read text) s
    rw [Progress.step, ← buildSource_eq] at hbuild
    refine .head hbuild ?_
    dsimp only
    cases buildSource b format text s with
    | error e s => exact .refl
    | ok made s =>
      have hwrite := step_update b format dir hp .fresh progress (.built made.1 made.2) s
      rw [Progress.step] at hwrite
      refine .head hwrite ?_
      dsimp only
      cases writeTarget (targetOf dir format p) made.1 s <;> exact .refl

theorem buildEach_cons (b : Builder) (format : Format) (source target : Path)
    (rest : List (Path × Path)) (s : Store) :
    buildEach b format ((source, target) :: rest) s =
      (⟨source, target, (buildOne b format source target s).outcome⟩ ::
          (buildEach b format rest (buildOne b format source target s).store).1,
        (buildEach b format rest (buildOne b format source target s).store).2) := by
  rw [buildEach]
  cases buildOne b format source target s <;> rfl

variable (b format dir) in
/-- Building one document after the other is one way to take the steps. -/
theorem run_buildEach (hrest : rest ⊆ sources) (hnodup : rest.Nodup) (st : State)
    (hwaiting : ∀ p ∈ rest, st.progress p = .waiting) :
    ∃ st', Run b format dir sources st st' ∧
      (st'.results dir format rest, st'.store) =
        buildEach b format (rest.map fun p => (p, targetOf dir format p)) st.store ∧
      st'.IsComplete rest ∧ ∀ p ∉ rest, st'.progress p = st.progress p := by
  induction rest generalizing st with
  | nil => exact ⟨st, .refl, rfl, nofun, fun _ _ => rfl⟩
  | cons p rest ih =>
    obtain ⟨hp, hrest⟩ := List.cons_subset.mp hrest
    obtain ⟨hnot, hnodup⟩ := List.nodup_cons.mp hnodup
    obtain ⟨hpwaiting, hwaiting⟩ := List.forall_mem_cons.mp hwaiting
    let after : State := ⟨(buildOne b format p (targetOf dir format p) st.store).store,
      Function.update st.progress p
        (.done (buildOne b format p (targetOf dir format p) st.store).outcome)⟩
    have hfirst : Run b format dir sources st after := run_buildOne hp hpwaiting
    -- The documents that follow are still waiting.
    have hstill : ∀ q ∈ rest, after.progress q = .waiting := by
      intro q hq
      have hne : q ≠ p := fun heq => hnot (heq ▸ hq)
      exact (Function.update_of_ne hne _ _).trans (hwaiting q hq)
    obtain ⟨st', hrun, hresults, hcomplete, hothers⟩ := ih hrest hnodup after hstill
    have hdone : st'.progress p =
        .done (buildOne b format p (targetOf dir format p) st.store).outcome :=
      (hothers p hnot).trans (Function.update_self _ _ _)
    refine ⟨st', hfirst.trans hrun, ?_, List.forall_mem_cons.mpr ⟨⟨_, hdone⟩, hcomplete⟩,
      fun q hq => ?_⟩
    · rw [List.map_cons, buildEach_cons, ← hresults, State.results, List.filterMap_cons, hdone]
      rfl
    · rw [List.mem_cons, not_or] at hq
      exact (hothers q hq.2).trans (Function.update_of_ne hq.1 _ _)

end DocWeave.CommandLine
