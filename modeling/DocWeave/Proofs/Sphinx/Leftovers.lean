import DocWeave.Proofs.Sphinx.StandIn

/-!
# Working directories that stay

Each build creates a working directory in the work root. It stays if Sphinx has failed, so that its logs
can be read, and after a success if that is wanted. Else it goes, however the build ends.

- `Workdir.Kept`: a working directory has stayed in its place.
- `Runner.Tidy`: the assumption on how Sphinx is run; `Command.tidy`: it holds of a command if it holds
  of the program.
- `LeftBy`: whether a working directory stays after a build, by the result of the build.
- `Gained`: what has become of a directory; `build_left`: what a build makes of the work root.
- `history`, `storeAfter`: builds one after the other; `workdirs_after`: what they leave.
- `untidy_runs_lose_or_add`: what other runners may bring about.
-/

namespace DocWeave

namespace Store

variable {s : Store} {l : Location}

theorem kind?_eq_none : s.kind? l = none ↔ s.find? l = none :=
  Option.map_eq_none_iff

theorem kind?_eq_directory : s.kind? l = some true ↔ s.find? l = some .directory := by
  rw [kind?, Option.map_eq_some_iff]
  simp

end Store

namespace Sphinx

open Page

variable {w : Workdir} {s s' s'' : Store} {l : Location} {e : Error}

/-! ## Runners that leave working directories in place -/

/-- From one store to another, a working directory has stayed in its place, and beside it nothing has
been added, removed or replaced by something of another kind. -/
structure Workdir.Kept (w : Workdir) (l : Location) (s s' : Store) : Prop where
  current : s'.current = s.current
  stands : w.Stands s' l
  beside : ∀ name, s'.kind? (l.dropLast ++ [name]) = s.kind? (l.dropLast ++ [name])

/-- Errors that say that Sphinx has been run and has failed. -/
inductive Error.IsFailed : Error → Prop
  | intro (code : Option Int) (log : Path) : IsFailed (.failed code log)

/-- An action that fails for other reasons only. -/
def Unfailing {α : Type} (act : Action Error α) : Prop :=
  ∀ s e s', act s = .error e s' → ¬ e.IsFailed

/-- A runner that does with its working directory what it likes, but keeps it, and that leaves it to the
outcome to say that Sphinx has failed. -/
structure Runner.Tidy (r : Runner) : Prop where
  keeps {w : Workdir} {s : Store} {l : Location} : w.Stands s l → w.Kept l s (r w.toRun s).store
  unfailing (i : Run) : Unfailing (r i)

namespace Workdir

/-- What has not changed has been kept. -/
theorem Stands.kept (h : w.Stands s l) : w.Kept l s s :=
  ⟨rfl, h, fun _ => rfl⟩

theorem Kept.trans (h : w.Kept l s s') (h' : w.Kept l s' s'') : w.Kept l s s'' :=
  ⟨h'.current.trans h.current, h'.stands, fun name => (h'.beside name).trans (h.beside name)⟩

/-- Actions one after the other keep a working directory if each of them does. -/
theorem Kept.bind {ε α β : Type} {act : Action ε α} {f : α → Action ε β}
    (h : w.Kept l s (act s).store)
    (hf : ∀ a s', w.Stands s' l → w.Kept l s' (f a s').store) :
    w.Kept l s ((act >>= f) s).store := by
  rw [Files.bind_apply]
  cases hact : act s with
  | error e s' =>
    rw [hact] at h
    exact h
  | ok a s' =>
    rw [hact] at h
    exact h.trans (hf a s' h.stands)

/-- What stands beside a working directory is not in it. -/
theorem not_beside {name : String} {rest : Location} (hl : l ≠ []) (hrest : rest ≠ []) :
    l.dropLast ++ [name] ≠ l ++ rest := by
  intro h
  -- The two places are not equally deep.
  have hlength := congrArg List.length h
  have hpos := List.length_pos_iff.mpr hl
  have hpos' := List.length_pos_iff.mpr hrest
  simp only [List.length_append, List.length_dropLast, List.length_singleton] at hlength
  omega

/-- A file in a working directory keeps it, unless it takes the place of a directory. -/
theorem Stands.putFile {name : String} (h : w.Stands s l)
    (hfree : s.find? (l ++ [name]) ≠ some .directory) (contents : ByteArray) :
    w.Kept l s (s.put (l ++ [name]) (.file contents)) := by
  have hne : l ++ [name] ≠ [] := by simp
  have hput : ∀ m, m ≠ l ++ [name] →
      (s.put (l ++ [name]) (.file contents)).find? m = s.find? m := by
    intro m hm
    rw [Store.find?_put hne, if_neg hm]
  refine ⟨rfl, ⟨h.closed.put hne ?_ fun hd => absurd hd hfree,
    h.reaches.put hne fun hd => absurd hd hfree, h.nonroot, h.direct⟩, fun other => ?_⟩
  · rw [List.dropLast_concat]
    exact h.reaches.directory
  · exact Store.kind?_congr (hput _ (not_beside h.nonroot (List.cons_ne_nil _ _)))

/-- Writing a file into a working directory keeps it. -/
theorem Stands.write {name : String} (h : w.Stands s l) (hname : ProperName name)
    (contents : ByteArray) : w.Kept l s (Files.write (w.path.child name) contents s).store := by
  rw [Files.write_eq, h.reaches.locate_child hname]
  dsimp only
  split
  · exact h.kept
  · rename_i hfree
    exact h.putFile hfree contents

/-- What goes into a log in a working directory keeps it, whether the log is still there or not. -/
theorem Stands.intoLog {name : String} (h : w.Stands s l) (hname : ProperName name)
    (printed : ByteArray) : w.Kept l s (Command.intoLog (w.path.child name) printed s) := by
  have hlocate := h.reaches.locate_child hname
  unfold Command.intoLog
  rw [hlocate]
  dsimp only
  split
  · rename_i hfile
    refine h.putFile (fun hdirectory => ?_) printed
    -- The log is a file, so it is no directory.
    rw [Store.isFile, Store.entry?, hlocate] at hfile
    dsimp only at hfile
    rw [hdirectory] at hfile
    cases hfile
  · exact h.kept

end Workdir

/-- A runner that keeps to its working directory is tidy. -/
theorem Runner.Confined.tidy {r : Runner} (hr : r.Confined)
    (hunfailing : ∀ i, Unfailing (r i)) : r.Tidy where
  keeps {w s l} h := by
    refine ⟨hr.current w.toRun s, hr.stands h, fun name => ?_⟩
    refine Store.kind?_congr (hr.frame h.reaches fun ⟨rest, hrest⟩ => ?_)
    by_cases hnil : rest = []
    · rw [← hrest, hnil, List.append_nil]
    · exact absurd hrest.symm (Workdir.not_beside h.nonroot hnil)
  unfailing := hunfailing

namespace Unfailing

theorem pure {α : Type} (a : α) : Unfailing (Pure.pure a) :=
  nofun

theorem mapError {α : Type} {f : SystemError → Error} (hf : ∀ e, ¬ (f e).IsFailed)
    (act : Action SystemError α) : Unfailing (Files.mapError f act) := by
  intro s e s' h
  unfold Files.mapError at h
  split at h
  · cases h
  · cases h
    exact hf _

theorem bind {α β : Type} {act : Action Error α} {f : α → Action Error β} (h : Unfailing act)
    (hf : ∀ a, Unfailing (f a)) : Unfailing (act >>= f) := by
  intro s e s' herror
  rw [Files.bind_apply] at herror
  cases hact : act s with
  | error e₁ s₁ =>
    rw [hact] at herror
    cases herror
    exact h s _ _ hact
  | ok a s₁ =>
    rw [hact] at herror
    exact hf a s₁ e s' herror

end Unfailing

/-- A command is tidy if the program is. Its logs are written into the working directory. -/
theorem Command.tidy {spawn : Spawn} {c : Command}
    (hspawn : ∀ (w : Workdir) s l, w.Stands s l →
      w.Kept l s (spawn c.program (c.allArguments w.toRun) s).store) :
    (c.runner spawn).Tidy where
  keeps {w s l} h := by
    -- Both logs are files in the working directory.
    have hlog {s : Store} {name : String} (h : w.Stands s l) (hname : ProperName name)
        (contents : ByteArray) : w.Kept l s (Files.mapError (Error.system (w.path.child name))
          (Files.write (w.path.child name) contents) s).store := by
      rw [Files.mapError_store]
      exact h.write hname contents
    refine Workdir.Kept.bind (hlog h properName_stdout _) fun _ s₁ h₁ => ?_
    refine Workdir.Kept.bind (hlog h₁ properName_stderr _) fun _ s₂ h₂ => ?_
    have hprogram : w.Kept l s₂ (Files.mapError (Error.notStarted c.program)
        (spawn c.program (c.allArguments w.toRun)) s₂).store := by
      rw [Files.mapError_store]
      exact hspawn w s₂ l h₂
    refine Workdir.Kept.bind hprogram fun exit s₃ h₃ => ?_
    have hfirst := h₃.intoLog properName_stdout exit.stdout
    exact hfirst.trans (hfirst.stands.intoLog properName_stderr exit.stderr)
  unfailing i := by
    refine .bind (.mapError (by nofun) _) fun _ => ?_
    refine .bind (.mapError (by nofun) _) fun _ => ?_
    exact .bind (.mapError (by nofun) _) fun exit => nofun

/-! ## The steps around a run -/

/-- Output that cannot be used is no failure of Sphinx. -/
theorem Findings.ofOutput_unfailed {names : List String} {xml : String}
    (h : ofOutput names xml = .error e) : ¬ e.IsFailed := by
  unfold ofOutput at h
  split at h
  · cases h
    nofun
  · dsimp only at h
    split at h
    · cases h
      nofun
    · cases h

/-- Nor is a missing output. -/
theorem collect_unfailing (w : Workdir) (names : List String) :
    Unfailing (Builder.collect w names) := by
  intro s e s' h
  rw [Builder.collect_eq, Builder.readResult_eq] at h
  split at h
  · rename_i hread
    cases h
    split at hread
    · split at hread <;> cases hread
      nofun
    · cases hread
      nofun
  · split at h
    · cases h
    · rename_i hfound
      cases h
      exact Findings.ofOutput_unfailed hfound

/-- Nor is a work root that cannot be created. -/
theorem openRoot_unfailing (root? : Option Path) : Unfailing (openRoot root?) := by
  cases root? with
  | none => exact .pure ()
  | some root => exact .mapError (by nofun) _

/-! ## What becomes of a directory -/

/-- What has become of the entries of a directory: the working directories `kept` are new, all that was
there has stayed, and other entries have been added at some places only. -/
structure Gained (l : Location) (added : List Location) (s s' : Store) (kept : List String) :
    Prop where
  current : s'.current = s.current
  closed : s'.Closed
  nodup : kept.Nodup
  usual : ∀ name ∈ kept, ∃ n, name = workdirName n
  new : ∀ name ∈ kept, s.kind? (l ++ [name]) = none
  directories : ∀ name ∈ kept, s'.kind? (l ++ [name]) = some true
  stays : ∀ name, s.kind? (l ++ [name]) ≠ none → s'.kind? (l ++ [name]) = s.kind? (l ++ [name])
  others : ∀ name, l ++ [name] ∉ added → name ∉ kept →
    s'.kind? (l ++ [name]) = s.kind? (l ++ [name])

namespace Gained

variable {added : List Location} {kept kept' : List String}

theorem refl (l : Location) (added : List Location) (hs : s.Closed) : Gained l added s s [] :=
  ⟨rfl, hs, List.nodup_nil, nofun, nofun, nofun, fun _ _ => rfl, fun _ _ _ => rfl⟩

theorem mono (h : Gained l added s s' kept) {more : List Location} (hmore : added ⊆ more) :
    Gained l more s s' kept :=
  { h with others := fun name hname => h.others name fun hmem => hname (hmore hmem) }

/-- One step after the other. A name that is new in the second one has not been there at the start. -/
theorem trans (h : Gained l added s s' kept) (h' : Gained l added s' s'' kept') :
    Gained l added s s'' (kept ++ kept') where
  current := h'.current.trans h.current
  closed := h'.closed
  nodup := by
    refine List.nodup_append.mpr ⟨h.nodup, h'.nodup, ?_⟩
    rintro name hname _ hname' rfl
    have hthere := h.directories name hname
    rw [h'.new name hname'] at hthere
    cases hthere
  usual name hname := (List.mem_append.mp hname).elim (h.usual name) (h'.usual name)
  new name hname := by
    rcases List.mem_append.mp hname with hname | hname
    · exact h.new name hname
    · -- What was there at first would have been there in between.
      by_contra hthere
      have hstays := h.stays name hthere
      rw [h'.new name hname] at hstays
      exact hthere hstays.symm
  directories name hname := by
    rcases List.mem_append.mp hname with hname | hname
    · have hthere := h.directories name hname
      rw [h'.stays name (by rw [hthere]; nofun), hthere]
    · exact h'.directories name hname
  stays name hname := by
    have hthere := h.stays name hname
    rw [h'.stays name (by rwa [hthere]), hthere]
  others name hout hname := by
    rw [List.mem_append, not_or] at hname
    rw [h'.others name hout hname.2, h.others name hout hname.1]

/-- Creating the work root adds places on the way to it. -/
theorem of_grown (h : Store.Grown added s s') (hs : s.Closed) : Gained l added s s' [] where
  current := h.current
  closed := h.closed hs
  nodup := List.nodup_nil
  usual := nofun
  new := nofun
  directories := nofun
  stays name hname := by
    -- Creating directories replaces nothing.
    obtain ⟨e, he⟩ := Option.ne_none_iff_exists'.mp (mt Store.kind?_eq_none.mpr hname)
    exact Store.kind?_congr ((h.keep he).trans he.symm)
  others name hout _ := Store.kind?_congr (h.elsewhere hout)

section

variable {name : String} (hfree : s.find? (l ++ [name]) = none) (hcurrent : s'.current = s.current)
  (hstands : w.Stands s' (l ++ [name]))
  (hbeside : ∀ other, other ≠ name → s'.kind? (l ++ [other]) = s.kind? (l ++ [other]))
include hfree hcurrent hstands hbeside

/-- A working directory has been created, and it stays. -/
theorem of_kept (hname : ∃ n, name = workdirName n) : Gained l [] s s' [name] where
  current := hcurrent
  closed := hstands.closed
  nodup := List.nodup_singleton _
  usual := List.forall_mem_singleton.mpr hname
  new := List.forall_mem_singleton.mpr (Store.kind?_eq_none.mpr hfree)
  directories := List.forall_mem_singleton.mpr
    (Store.kind?_eq_directory.mpr hstands.reaches.directory)
  stays other hthere := by
    refine hbeside other ?_
    rintro rfl
    exact hthere (Store.kind?_eq_none.mpr hfree)
  others other _ hother := hbeside other (mt List.mem_singleton.mpr hother)

/-- A working directory has been created and removed again. -/
theorem of_removed : Gained l [] s (s'.removeTree (l ++ [name])) [] := by
  have hafter : ∀ other, (s'.removeTree (l ++ [name])).kind? (l ++ [other]) =
      s.kind? (l ++ [other]) := by
    intro other
    rw [Store.kind?, Store.find?_removeTree hstands.nonroot]
    by_cases hother : other = name
    · rw [hother, if_pos (List.prefix_refl _), Store.kind?, hfree]
    · rw [if_neg (by simpa using Ne.symm hother)]
      exact hbeside other hother
  exact ⟨hcurrent, hstands.closed.removeTree hstands.nonroot, List.nodup_nil,
    List.forall_mem_nil _, List.forall_mem_nil _, List.forall_mem_nil _,
    fun other _ => hafter other, fun other _ _ => hafter other⟩

end

end Gained

/-! ## What a build leaves -/

/-- Whether a working directory stays after a build, by the result: if Sphinx has failed, and after a
success if that is wanted and there was something to do. -/
def leavesWorkdir (keep : Bool) (d : Document) : Except Error Report → Bool
  | .error (.failed _ _) => true
  | .error _ => false
  | .ok _ => keep && !d.places.isEmpty

/-- The working directory that stays after a build, if one does. The report of a success names it. -/
structure LeftBy (keep : Bool) (d : Document) (result : Except Error Report) (path? : Option Path) :
    Prop where
  stays : path?.isSome = leavesWorkdir keep d result
  reported : ∀ report, result = .ok report → report.workdir? = path?

namespace LeftBy

variable {keep : Bool} {d : Document}

/-- After errors other than that of Sphinx none stays. -/
theorem error (h : ¬ e.IsFailed) : LeftBy keep d (.error e) none where
  stays := by
    cases e with
    | failed code log => exact absurd ⟨code, log⟩ h
    | _ => rfl
  reported := nofun

/-- After a failure of Sphinx, the working directory stays. -/
theorem failed (code : Option Int) (log path : Path) :
    LeftBy keep d (.error (.failed code log)) (some path) :=
  ⟨rfl, nofun⟩

/-- After a success, it stays if that is wanted. -/
theorem success (hd : d.places ≠ []) {report : Report} {path : Path}
    (h : report.workdir? = if keep then some path else none) :
    LeftBy keep d (.ok report) (if keep then some path else none) where
  stays := by
    have hempty : d.places.isEmpty = false := by simpa using hd
    rw [leavesWorkdir, hempty]
    cases keep <;> rfl
  reported report' heq := by
    obtain rfl := Except.ok.inj heq
    exact h

/-- Without places there is no working directory. -/
theorem idle (hd : d.places = []) : LeftBy keep d (.ok {}) none where
  stays := by
    rw [leavesWorkdir, hd]
    cases keep <;> rfl
  reported report heq := by
    obtain rfl := Except.ok.inj heq
    rfl

end LeftBy

namespace Builder

variable {b : Builder} {d : Document} {s₀ t : Store}

/-- The place of the work root. -/
def rootPlace (b : Builder) (s : Store) : Location :=
  (s.absolute b.root).goal s.current

theorem rootPlace_congr (h : s'.current = s.current) : b.rootPlace s' = b.rootPlace s := by
  rw [rootPlace, rootPlace, absolute_congr h, h]

/-- A build in a new working directory ends with this directory in its place, and either leaves it there
or removes it, as its result tells. -/
theorem buildIn_left (hb : b.runner.Tidy) (h : Fresh s₀ w l s) (hd : d.places ≠ []) :
    ∃ t s' path?, Opened s₀ w l t ∧ w.Kept l t s' ∧
      LeftBy b.keepWorkdir d (b.buildIn w d s).result path? ∧
      (path? = some w.path ∧ (b.buildIn w d s).store = s' ∨
        path? = none ∧ (b.buildIn w d s).store = w.remove s') := by
  cases hdisk : b.disk.refusedSource? with
  | some refused =>
    -- Without sources Sphinx is not run.
    obtain ⟨t, hopened, hprepare⟩ := h.prepareOn_of_refused hdisk (RequestFile.ofDocument d).text
      b.conf.text
    rw [buildIn_refused hprepare]
    exact ⟨t, t, none, hopened, hopened.stands.kept, .error nofun, Or.inr ⟨rfl, rfl⟩⟩
  | none =>
    have hprepare := h.prepareOn_of_taken hdisk (RequestFile.ofDocument d).text b.conf.text
    have hopened := h.withSources (RequestFile.ofDocument d).text b.conf.text
    have hkept := hb.keeps hopened.stands
    have hending := buildIn_ending hprepare
    generalize b.buildIn w d s = built at hending ⊢
    cases hending with
    | unstarted hrun =>
      rw [hrun] at hkept
      exact ⟨_, _, none, hopened, hkept, .error (hb.unfailing _ _ _ _ hrun), Or.inr ⟨rfl, rfl⟩⟩
    | failed hrun =>
      rw [hrun] at hkept
      exact ⟨_, _, _, hopened, hkept, .failed _ _ w.path, Or.inl ⟨rfl, rfl⟩⟩
    | unread hrun hcollect =>
      rw [hrun] at hkept
      exact ⟨_, _, none, hopened, hkept, .error (collect_unfailing w _ _ _ _ hcollect),
        Or.inr ⟨rfl, rfl⟩⟩
    | filled hrun _ =>
      rw [hrun] at hkept
      refine ⟨_, _, _, hopened, hkept, .success hd rfl, ?_⟩
      dsimp only
      cases b.keepWorkdir with
      | false => exact Or.inr ⟨rfl, rfl⟩
      | true => exact Or.inl ⟨rfl, rfl⟩

/-- A build adds at most its working directory to the work root. -/
theorem buildBelow_left (hb : b.runner.Tidy) (hs : s.Closed) (c : Naming) (hd : d.places ≠ []) :
    ∃ name? : Option String,
      LeftBy b.keepWorkdir d (b.buildBelow c d s).result (name?.map (s.absolute b.root).child) ∧
      Gained (b.rootPlace s) [] s (b.buildBelow c d s).store name?.toList := by
  unfold buildBelow
  rcases createBelow_cases c b.disk b.root hs with ⟨p, e, hcreate⟩ | ⟨l, hbase, hcreate⟩
  · rw [hcreate]
    exact ⟨none, .error nofun, .refl _ _ hs⟩
  · have hplace : l = b.rootPlace s := hbase.leads.symm
    have hfree := c.free s l
    obtain ⟨t, s', path?, hopened, hkept, hleft, hend⟩ :=
      buildIn_left hb (Opened.fresh hs hbase (c.proper s l) hfree) hd
    -- Beside the working directory, all is as before the build.
    have hbeside : ∀ name, name ≠ c.name s l → s'.kind? (l ++ [name]) = s.kind? (l ++ [name]) := by
      intro name hname
      have hstays := hkept.beside name
      rw [List.dropLast_concat] at hstays
      refine hstays.trans (Store.kind?_congr (hopened.frame _ ?_))
      simpa using Ne.symm hname
    have hcurrent := hkept.current.trans hopened.current
    rw [hcreate, ← hplace]
    dsimp only
    rcases hend with ⟨rfl, hstore⟩ | ⟨rfl, hstore⟩
    · refine ⟨some (c.name s l), hleft, ?_⟩
      rw [hstore]
      exact .of_kept hfree hcurrent hkept.stands hbeside (c.usual s l)
    · refine ⟨none, hleft, ?_⟩
      rw [hstore, hkept.stands.remove_eq (Path.text_child_ne (c.proper s l))]
      exact .of_removed hfree hcurrent hkept.stands hbeside

/-- **What a build leaves.** If its result says so, its working directory stays in the work root, under
a name that was not in use. Else nothing is added, but for what is on the way to the work root. -/
theorem build_left (hb : b.runner.Tidy) (hs : s.Closed) (d : Document) :
    ∃ name? : Option String,
      LeftBy b.keepWorkdir d (b.build d s).result (name?.map (s.absolute b.root).child) ∧
      Gained (b.rootPlace s) (b.workPlaces s) s (b.build d s).store
        name?.toList := by
  by_cases hd : d.places = []
  · rw [build_of_no_places hd]
    exact ⟨none, .idle hd, .refl _ _ hs⟩
  · have hempty : ¬ d.places.isEmpty = true := by simpa using hd
    rw [build_eq, buildWith, if_neg hempty]
    have hgrown := b.openRoot_grown_work s
    cases hopen : openRoot b.workRoot? s with
    | error e s₁ =>
      rw [hopen] at hgrown
      exact ⟨none, .error (openRoot_unfailing _ _ _ _ hopen), .of_grown hgrown hs⟩
    | ok _ s₁ =>
      rw [hopen] at hgrown
      change Store.Grown (b.workPlaces s) s s₁ at hgrown
      have hcurrent := hgrown.current
      have hfirst : Gained (b.rootPlace s) (b.workPlaces s) s s₁ [] :=
        .of_grown hgrown hs
      -- The place of the work root is the same before and after it has been created.
      obtain ⟨name?, hleft, hgained⟩ := buildBelow_left hb hfirst.closed .fresh hd
      rw [absolute_congr hcurrent] at hleft
      rw [rootPlace_congr hcurrent] at hgained
      exact ⟨name?, hleft, hfirst.trans (hgained.mono (List.nil_subset _))⟩

/-! ## Builds one after the other -/

/-- One of several builds: how Sphinx is run, what the disk holds at that time, and the document. -/
structure Attempt where
  /-- How Sphinx is run. -/
  runner : Runner
  /-- The disk. -/
  disk : Disk := {}
  /-- The document. -/
  document : Document

/-- What a build leaves, of which the rest is as with others. -/
def attempt (b : Builder) (a : Attempt) (s : Store) : Built :=
  { b with runner := a.runner, disk := a.disk }.build a.document s

/-- Builds in the same files one after the other: the documents as they were given, and what their builds
leave. -/
def history (b : Builder) : List Attempt → Store → List (Document × Built)
  | [], _ => []
  | a :: rest, s => (a.document, b.attempt a s) :: history b rest (b.attempt a s).store

/-- The files after such builds. -/
def storeAfter (b : Builder) : List Attempt → Store → Store
  | [], s => s
  | a :: rest, s => storeAfter b rest (b.attempt a s).store

/-- Builds one after the other leave what each of them leaves. -/
theorem history_left {attempts : List Attempt} (htidy : ∀ a ∈ attempts, a.runner.Tidy)
    (hs : s.Closed) : ∃ left : List (Option String),
      List.Forall₂ (fun entry name? =>
        LeftBy b.keepWorkdir entry.1 entry.2.result (name?.map (s.absolute b.root).child))
        (b.history attempts s) left ∧
      Gained (b.rootPlace s) (b.workPlaces s) s (b.storeAfter attempts s) left.reduceOption := by
  induction attempts generalizing s with
  | nil => exact ⟨[], .nil, .refl _ _ hs⟩
  | cons a attempts ih =>
    rw [List.forall_mem_cons] at htidy
    obtain ⟨name?, hleft, hgained⟩ :=
      build_left (b := { b with runner := a.runner, disk := a.disk }) htidy.1 hs a.document
    obtain ⟨left, hrest, hmore⟩ := ih (s := (b.attempt a s).store) htidy.2 hgained.closed
    -- The work root is the same for all builds, since the current directory stays.
    have hcurrent : (b.attempt a s).store.current = s.current := hgained.current
    have hplaces : b.workPlaces (b.attempt a s).store = b.workPlaces s := by
      rw [workPlaces, workPlaces, hcurrent]
    rw [absolute_congr hcurrent] at hrest
    rw [rootPlace_congr hcurrent, hplaces] at hmore
    refine ⟨name? :: left, .cons hleft hrest, ?_⟩
    have hall := hgained.trans hmore
    cases name? <;> exact hall

/-- As many working directories stay as there are builds that leave one. -/
theorem length_left {results : List (Document × Built)} {left : List (Option String)} {base : Path}
    {keep : Bool} (h : List.Forall₂ (fun entry name? =>
      LeftBy keep entry.1 entry.2.result (name?.map base.child)) results left) :
    left.reduceOption.length =
      results.countP fun entry => leavesWorkdir keep entry.1 entry.2.result := by
  induction h with
  | nil => rfl
  | @cons result name? results left hleft _ ih =>
    have hstays := hleft.stays
    rw [Option.isSome_map] at hstays
    rw [List.countP_cons, ← ih, ← hstays]
    cases name? <;> rfl

/-- **Working directories are neither leaked nor lost.** Of builds one after the other, each leaves one
working directory of its own or none, as its result says: one if Sphinx has failed or, where that is
wanted, after a success with something to do, which the report then names. What was in the work root
stays there, and all that is new in it are these directories, unless the path of the work root itself
leads through it. -/
theorem workdirs_after {attempts : List Attempt} (hs : s.Closed)
    (htidy : ∀ a ∈ attempts, a.runner.Tidy) :
    ∃ left : List (Option String),
      List.Forall₂ (fun entry name? =>
        LeftBy b.keepWorkdir entry.1 entry.2.result (name?.map (s.absolute b.root).child))
        (b.history attempts s) left ∧
      left.reduceOption.Nodup ∧
      left.reduceOption.length = ((b.history attempts s).countP fun entry =>
        leavesWorkdir b.keepWorkdir entry.1 entry.2.result) ∧
      (∀ name ∈ left.reduceOption, (∃ n, name = workdirName n) ∧
        s.find? (b.rootPlace s ++ [name]) = none ∧
        (b.storeAfter attempts s).find? (b.rootPlace s ++ [name]) = some .directory) ∧
      (∀ name, s.find? (b.rootPlace s ++ [name]) ≠ none →
        (b.storeAfter attempts s).find? (b.rootPlace s ++ [name]) ≠ none) ∧
      ∀ name, b.rootPlace s ++ [name] ∉ b.workPlaces s →
        ((b.storeAfter attempts s).find? (b.rootPlace s ++ [name]) ≠ none ↔
          s.find? (b.rootPlace s ++ [name]) ≠ none ∨ name ∈ left.reduceOption) := by
  obtain ⟨left, hleft, hgained⟩ := history_left htidy hs
  have hstays : ∀ name, s.find? (b.rootPlace s ++ [name]) ≠ none →
      (b.storeAfter attempts s).find? (b.rootPlace s ++ [name]) ≠ none := by
    intro name hthere
    rw [Ne, ← Store.kind?_eq_none] at hthere ⊢
    rwa [hgained.stays name hthere]
  have hnew : ∀ name ∈ left.reduceOption,
      (b.storeAfter attempts s).find? (b.rootPlace s ++ [name]) = some .directory :=
    fun name hname => Store.kind?_eq_directory.mp (hgained.directories name hname)
  refine ⟨left, hleft, hgained.nodup, length_left hleft, fun name hname => ⟨hgained.usual name hname,
    Store.kind?_eq_none.mp (hgained.new name hname), hnew name hname⟩, hstays, fun name hout => ?_⟩
  constructor
  · intro hafter
    by_contra hnone
    rw [not_or, not_not] at hnone
    have hsame := hgained.others name hout hnone.2
    rw [Store.kind?_eq_none.mpr hnone.1, Store.kind?_eq_none] at hsame
    exact hafter hsame
  · rintro (hthere | hname)
    · exact hstays name hthere
    · rw [hnew name hname]
      nofun

/-- The stand-in is tidy. -/
theorem writing_tidy (xml : String) (exitCode : Int) : (writing xml exitCode).Tidy := by
  refine (writing_confined xml exitCode).tidy fun i => ?_
  refine .bind (.mapError (by nofun) _) fun _ => ?_
  exact .bind (.mapError (by nofun) _) fun _ => .pure _

/-- Sphinx fails, then cannot be started, then the disk is full, then Sphinx succeeds: the first and the
last build leave working directories. -/
theorem workdirs_after_four_builds :
    let b : Builder := { standIn "<d/>" with workRoot? := some ⟨"/work"⟩, keepWorkdir := true }
    let d : Document := ⟨[.autodoc { request := { moduleName := "m" }, line := 1 }]⟩
    let lost : Spawn := fun _ _ s => .error .notFound s
    let full : Disk := ⟨fun names => if names = ["source"] then some .noSpace else none⟩
    let attempts : List Attempt := [⟨writing "" 2, {}, d⟩,
      ⟨Command.runner lost ⟨"sphinx-build", [], []⟩, {}, d⟩, ⟨writing "<d/>" 0, full, d⟩,
      ⟨writing "<d/>" 0, {}, d⟩]
    ∃ kept : List String, kept.Nodup ∧ kept.length = 2 ∧
      ∀ name, (b.storeAfter attempts emptyStore).find? ["work", name] ≠ none ↔ name ∈ kept := by
  intro b d lost full attempts
  have hclosed : emptyStore.Closed := by
    refine Store.closed_of_entries ?_
    decide +kernel
  have hlost : (Command.runner lost ⟨"sphinx-build", [], []⟩).Tidy :=
    Command.tidy fun w s l h => h.kept
  have htidy : ∀ a ∈ attempts, a.runner.Tidy := by
    simp only [attempts, List.forall_mem_cons]
    exact ⟨writing_tidy _ _, hlost, writing_tidy _ _, writing_tidy _ _, nofun⟩
  obtain ⟨left, -, hnodup, hlength, -, -, hafter⟩ := workdirs_after (b := b) hclosed htidy
  have hplace : b.rootPlace emptyStore = ["work"] := by decide +kernel
  have hplaces : b.workPlaces emptyStore = [[], ["work"]] := by decide +kernel
  have hcount : ((b.history attempts emptyStore).countP fun entry =>
      leavesWorkdir b.keepWorkdir entry.1 entry.2.result) = 2 := by
    decide +kernel
  refine ⟨left.reduceOption, hnodup, hlength.trans hcount, fun name => ?_⟩
  have hiff := hafter name (by rw [hplace, hplaces]; simp)
  rw [hplace] at hiff
  have hbefore : emptyStore.find? ["work", name] = none := by
    simp [Store.find?, emptyStore]
  rw [List.singleton_append, hbefore] at hiff
  simpa using hiff

/-! ## Runners that are not tidy -/

/-- A run that changes the files and fails. -/
def failingAfter (change : Store → Store) : Runner := fun i s =>
  .ok ⟨some 1, i.logs.child "stdout.log", i.logs.child "stderr.log"⟩ (change s)

/-- What becomes of `rm -r work -- -b xml …`: the directory `work` goes, and then there is nothing of the
other names to remove. -/
def removeWork : Spawn := fun _ _ s =>
  .ok { exitCode? := some 1 } (Files.removeTree ⟨"work"⟩ s)

/-- A run that says itself that Sphinx has failed. -/
def refusing : Runner := fun i s =>
  .error (.failed (some 1) (i.logs.child "stderr.log")) s

/-- Builds of the same document in a new work root: after how many of them a working directory should
stay, and what is in the work root. -/
def countedAndLeft (attempts : Nat) (runner : Runner) : Nat × List String :=
  let b : Builder := { standIn "<d/>" with workRoot? := some ⟨"work"⟩ }
  let d : Document := ⟨[.autodoc { request := { moduleName := "m" }, line := 1 }]⟩
  let all := List.replicate attempts (Attempt.mk runner {} d)
  ((b.history all emptyStore).countP fun entry => leavesWorkdir b.keepWorkdir entry.1 entry.2.result,
    (b.storeAfter all emptyStore).names ["work"])

/-- What is left by runners that lack one of the conditions each: if a command removes the work root and
fails, its working directory is lost; another directory that a run creates there is left as well; the
error of a runner does not keep the working directory, whatever it says; and once the current directory
is another one, so is the work root. -/
theorem untidy_runs_lose_or_add :
    countedAndLeft 1 (Command.runner removeWork (.ofText "rm -r work --" [])) = (1, []) ∧
    countedAndLeft 1 (failingAfter (·.put ["work", "autodoc-000007"] .directory)) =
      (1, ["autodoc-000007", "autodoc-000000"]) ∧
    countedAndLeft 1 refusing = (1, []) ∧
    countedAndLeft 2 (failingAfter fun s => { s with current := ["tmp"] }) =
      (2, ["autodoc-000000"]) := by
  decide +kernel

end Builder

end Sphinx

end DocWeave
