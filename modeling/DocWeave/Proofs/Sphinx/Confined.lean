import DocWeave.Proofs.Sphinx.Naming
import DocWeave.Proofs.Sphinx.Stages

/-!
# Builds that keep to their working directories

A runner is confined if all it touches, and all that its outcome depends on, is in the working directory
of its run. A build with such a runner leaves the rest of the files as they were, and what comes of it
does not depend on them, nor on the name of the working directory, except that errors mention it.

- `Path.Alike`, `Error.Alike`: equal but for the number of a working directory.
- `Runner.Confined`: the assumption on how Sphinx is run.
- `InWorkdir`: the places that belong to working directories; `Workdir.Stands`: one is in its place.
- `Builder.Ending`: how a build ends that has written its sources.
- `buildBelow_store`: what a build leaves of the files; `buildBelow_alike`: what comes of it.
-/

namespace DocWeave.Sphinx

open Page
open Store (Reaches AgreeOn)

/-! ## Equal but for the name of the working directory -/

/-- A path with the name of a working directory in it. -/
def numbered (before after : String) (n : Nat) : Path :=
  ⟨before ++ workdirName n ++ after⟩

/-- Paths that differ at most in the number of a working directory. -/
inductive PathAlike : Path → Path → Prop
  | same (p : Path) : PathAlike p p
  | numbered (before after : String) (n m : Nat) :
    PathAlike (numbered before after n) (numbered before after m)

/-- Errors that differ at most in the number of a working directory. -/
inductive Error.Alike : Error → Error → Prop
  | same (e : Error) : Alike e e
  | system {p q : Path} (h : PathAlike p q) (e : SystemError) : Alike (.system p e) (.system q e)
  | failed {p q : Path} (h : PathAlike p q) (code : Option Int) : Alike (.failed code p) (.failed code q)
  | noOutput {p q : Path} (h : PathAlike p q) : Alike (.noOutput p) (.noOutput q)

/-- Both actions have failed, with errors that are related, or both have yielded related values. -/
inductive Both {ε α : Type} (E : ε → ε → Prop) (V : α → α → Prop) : Except ε α → Except ε α → Prop
  | error {e f : ε} (h : E e f) : Both E V (.error e) (.error f)
  | ok {a b : α} (h : V a b) : Both E V (.ok a) (.ok b)

/-- Both outcomes are of the same kind, with the stores in which they have been reached. -/
theorem Both.cases {ε α : Type} {E : ε → ε → Prop} {V : α → α → Prop} {r r' : EStateM.Result ε Store α}
    (h : Both E V r.outcome r'.outcome) :
    (∃ e f s t, r = .error e s ∧ r' = .error f t ∧ E e f) ∨
      ∃ a b s t, r = .ok a s ∧ r' = .ok b t ∧ V a b := by
  cases r with
  | error e s =>
    cases r' with
    | error f t =>
      cases h with
      | error h => exact Or.inl ⟨e, f, s, t, rfl, rfl, h⟩
    | ok b t => cases h
  | ok a s =>
    cases r' with
    | error f t => cases h
    | ok b t =>
      cases h with
      | ok h => exact Or.inr ⟨a, b, s, t, rfl, rfl, h⟩

/-- A working directory has a number in its name, and the same in front of it as all others. -/
theorem exists_numbered (base : Path) :
    ∃ before, ∀ n, base.child (workdirName n) = numbered before "" n := by
  -- Only a directory that does not end with a slash gets one before the name.
  by_cases hslash : base.text.toList.getLast?.all (· = '/') = true
  · refine ⟨base.text, fun n => ?_⟩
    rw [Path.child, Path.join, (properName_workdirName n).relative, if_neg nofun, if_pos hslash,
      numbered, String.append_empty]
  · refine ⟨base.text ++ "/", fun n => ?_⟩
    rw [Path.child, Path.join, (properName_workdirName n).relative, if_neg nofun, if_neg hslash,
      numbered, String.append_empty]

/-- What is in a working directory has a number in its path as well. -/
theorem child_numbered {before after name : String} (hname : ProperName name)
    (hafter : after.toList.getLast? ≠ some '/') (n : Nat) :
    (numbered before after n).child name = numbered before (after ++ "/" ++ name) n := by
  -- The path does not end with a slash, whether or not anything stands behind the number.
  have hlast : ¬ (numbered before after n).text.toList.getLast?.all (· = '/') = true := by
    have hnumber := properName_workdirName n
    simp only [numbered, String.toList_append, List.getLast?_append]
    cases hend : after.toList.getLast? with
    | some c => simpa [hend] using hafter
    | none =>
      cases hname : (workdirName n).toList.getLast? with
      | none => exact absurd (List.getLast?_eq_none_iff.mp hname) hnumber.nonempty
      | some c =>
        have hc : c ≠ '/' := fun hc => hnumber.unslashed (hc ▸ List.mem_of_getLast? hname)
        simpa using hc
  rw [Path.child, Path.join, hname.relative, if_neg nofun, if_neg hlast]
  simp only [numbered, String.append_assoc]

theorem properName_source : ProperName "source" := by decide

/-- Equal names in working directories are alike. -/
theorem child_alike (base : Path) (n n' : Nat) {name : String} (hname : ProperName name) :
    PathAlike ((base.child (workdirName n)).child name) ((base.child (workdirName n')).child name) := by
  obtain ⟨before, hbase⟩ := exists_numbered base
  rw [hbase, hbase, child_numbered hname (by decide), child_numbered hname (by decide)]
  exact .numbered _ _ _ _

theorem source_alike (base : Path) (n n' : Nat) {name : String} (hname : ProperName name) :
    PathAlike ((Workdir.mk (base.child (workdirName n))).source.child name)
      ((Workdir.mk (base.child (workdirName n'))).source.child name) := by
  obtain ⟨before, hbase⟩ := exists_numbered base
  unfold Workdir.source
  dsimp only
  rw [hbase, hbase, child_numbered properName_source (by decide),
    child_numbered properName_source (by decide), child_numbered hname (by decide),
    child_numbered hname (by decide)]
  exact .numbered _ _ _ _

/-! ## Runners that keep to their working directories -/

/-- Outcomes that differ at most in the number of a working directory. -/
structure Outcome.Alike (o o' : Outcome) : Prop where
  exitCode : o.exitCode? = o'.exitCode?
  stdout : PathAlike o.stdout o'.stdout
  stderr : PathAlike o.stderr o'.stderr

/-- At and below two places, two stores hold the same. -/
def Twin (l m : Location) (s t : Store) : Prop :=
  ∀ rest, s.find? (l ++ rest) = t.find? (m ++ rest)

/-- The directories of a run in a working directory. -/
def Workdir.toRun (w : Workdir) : Run :=
  ⟨w.source, w.output, w.path⟩

/-- A working directory is in its place: its path leads there, and not through what it holds. -/
structure Workdir.Stands (w : Workdir) (s : Store) (l : Location) : Prop where
  closed : s.Closed
  reaches : s.Reaches w.path l
  nonroot : l ≠ []
  direct : ∀ m ∈ w.path.places s.current, l <+: m → m = l

/-- A runner that only touches what is in the working directory, and whose outcome only depends on
what the working directory holds. -/
structure Runner.Confined (r : Runner) : Prop where
  /-- The current directory stays. -/
  current (i : Run) (s : Store) : (r i s).store.current = s.current
  /-- Nothing changes outside of the working directory. -/
  frame {w : Workdir} {s : Store} {l m : Location} : s.Reaches w.path l → (l <+: m → m = l) →
    (r w.toRun s).store.find? m = s.find? m
  /-- What it leaves stands in directories. -/
  closed {w : Workdir} {s : Store} {l : Location} : s.Closed → s.Reaches w.path l →
    (r w.toRun s).store.Closed
  /-- In working directories that hold the same it does the same. -/
  twin {base : Path} {n n' : Nat} {s t : Store} {l m : Location} :
    s.Reaches (base.child (workdirName n)) l → t.Reaches (base.child (workdirName n')) m →
    Twin l m s t →
    Both Error.Alike Outcome.Alike (r (Workdir.mk (base.child (workdirName n))).toRun s).outcome
      (r (Workdir.mk (base.child (workdirName n'))).toRun t).outcome ∧
    Twin l m (r (Workdir.mk (base.child (workdirName n))).toRun s).store
      (r (Workdir.mk (base.child (workdirName n'))).toRun t).store

/-- A confined run leaves its working directory in place. -/
theorem Runner.Confined.stands {r : Runner} (hr : r.Confined) {w : Workdir} {s : Store} {l : Location}
    (h : w.Stands s l) : w.Stands (r w.toRun s).store l := by
  have hcurrent := hr.current w.toRun s
  refine ⟨hr.closed h.closed h.reaches, ?_, h.nonroot, fun m hm => h.direct m (hcurrent ▸ hm)⟩
  refine h.reaches.mono hcurrent.symm fun m hm hdirectory => ?_
  rwa [hr.frame h.reaches (h.direct m hm)]

/-- Removing a working directory removes what is in its place. -/
theorem Workdir.Stands.remove_eq {w : Workdir} {s : Store} {l : Location} (h : w.Stands s l)
    (htext : w.path.text ≠ "") : w.remove s = s.removeTree l := by
  rw [Workdir.remove, Files.removeTree, h.reaches.locate htext]

/-! ## Creating a working directory -/

variable {c : Naming} {disk : Disk} {root : Path} {s t : Store} {l : Location}

/-- The store with a new working directory. -/
def withWorkdir (s : Store) (l : Location) : Store :=
  (s.put l .directory).put (l ++ ["source"]) .directory

/-- A path that leads to a directory reaches it. -/
theorem reaches_of_locate {p : Path} (h : s.locate p = .ok l) (hl : s.find? l = some .directory) :
    s.Reaches p l := by
  obtain ⟨hway, rfl⟩ := Store.locate_eq_ok h
  exact ⟨rfl, List.forall_mem_append.mpr ⟨hway, List.forall_mem_singleton.mpr hl⟩⟩

/-- In a directory, another one is created under a name that is free. -/
theorem createDirectory_child {p : Path} {name : String} (h : s.Reaches p l)
    (hname : ProperName name) (hfree : s.find? (l ++ [name]) = none) :
    Files.createDirectory (p.child name) s = .ok () (s.put (l ++ [name]) .directory) := by
  rw [Files.createDirectory_eq, if_neg (Path.text_child_ne hname), h.walk_child hname]
  dsimp only
  rw [hfree]

/-- Whatever numbers are taken, the name is a proper one. -/
theorem Naming.proper (c : Naming) (s : Store) (l : Location) : ProperName (c.name s l) := by
  obtain ⟨n, hname⟩ := c.usual s l
  rw [hname]
  exact properName_workdirName n

/-- What is created in a place is looked for from there. -/
theorem walk_child_of_locate {p : Path} {name : String} (h : s.locate p = .ok l)
    (hname : ProperName name) :
    s.walk (s.origin (p.child name)) (p.child name).stepsToCreate = s.walk l [name] := by
  rw [Path.stepsToCreate_child hname]
  show s.walk ((p.child name).start s.current) _ = _
  rw [Path.start_child hname]
  exact Store.walk_append (Store.walk_of_locate h)

/-- No directory is created in what is missing. -/
theorem createDirectory_in_missing {p : Path} {name : String} (h : s.locate p = .ok l)
    (hname : ProperName name) (hl : s.find? l = none) :
    Files.createDirectory (p.child name) s = .error .notFound s := by
  rw [Files.createDirectory_eq, if_neg (Path.text_child_ne hname), walk_child_of_locate h hname,
    Store.walk, hl]

/-- No directory is created in a file. -/
theorem createDirectory_in_file {p : Path} {name : String} {contents : ByteArray}
    (h : s.locate p = .ok l) (hname : ProperName name) (hl : s.find? l = some (.file contents)) :
    Files.createDirectory (p.child name) s = .error .notDirectory s := by
  rw [Files.createDirectory_eq, if_neg (Path.text_child_ne hname), walk_child_of_locate h hname,
    Store.walk, hl]

/-- In a directory that is new the one for the sources is created. -/
theorem createDirectory_source {base : Path} {name : String} (hs : s.Closed) (hbase : s.Reaches base l)
    (hname : ProperName name) (hfree : s.find? (l ++ [name]) = none) :
    Files.createDirectory (Workdir.mk (base.child name)).source (s.put (l ++ [name]) .directory) =
      .ok () (withWorkdir s (l ++ [name])) := by
  have hne : l ++ [name] ≠ [] := by simp
  -- What is below a free name is free as well.
  have hnone : (s.put (l ++ [name]) .directory).find? (l ++ [name] ++ ["source"]) = none := by
    rw [Store.find?_put hne, if_neg (by simp)]
    exact hs.nothing_below hfree (List.prefix_append _ _)
  exact createDirectory_child (hbase.newChild hname) properName_source hnone

theorem Disk.allow_of_taken {α : Type} {names : List String} (h : disk.refusal names = none)
    (act : Action SystemError α) : disk.allow names act = act := by
  rw [Disk.allow, h]

theorem Disk.allow_of_refused {α : Type} {names : List String} {e : SystemError}
    (h : disk.refusal names = some e) (act : Action SystemError α) (s : Store) :
    disk.allow names act s = .error e s := by
  rw [Disk.allow, h]
  rfl

variable (c disk root s) in
/-- The steps of creating a working directory. What fails after the first one takes it along. -/
theorem createBelow_steps : createBelow c disk root s =
    match s.locate (s.absolute root) with
    | .error e => .error (.system root e) s
    | .ok l =>
      let w : Workdir := ⟨(s.absolute root).child (c.name s l)⟩
      match disk.allow [] (Files.createDirectory w.path) s with
      | .error e s => .error (.system root e) s
      | .ok _ s =>
        match disk.allow ["source"] (Files.createDirectory w.source) s with
        | .error e s => .error (.system w.source e) (w.remove s)
        | .ok _ s => .ok w s := by
  show (Files.mapError (Error.system root) (Files.locate (s.absolute root)) >>= _) s = _
  rw [Files.bind_apply, Files.mapError, Files.locate]
  cases s.locate (s.absolute root) with
  | error e => rfl
  | ok l =>
    show (Files.mapError (Error.system root) (disk.allow []
      (Files.createDirectory ((s.absolute root).child (c.name s l)))) >>= _) s = _
    rw [Files.bind_apply, Files.mapError]
    dsimp only
    cases disk.allow [] (Files.createDirectory ((s.absolute root).child (c.name s l))) s with
    | error e s => rfl
    | ok _ s =>
      dsimp only
      rw [Files.bind_apply, Workdir.orRemove, Files.mapError]
      cases disk.allow ["source"] (Files.createDirectory (Workdir.mk _).source) s <;> rfl

/-- A new directory that is removed again leaves no trace. -/
theorem remove_new {base : Path} {name : String} (hs : s.Closed) (hbase : s.Reaches base l)
    (hname : ProperName name) (hfree : s.find? (l ++ [name]) = none) :
    (Workdir.mk (base.child name)).remove (s.put (l ++ [name]) .directory) = s := by
  have hne : l ++ [name] ≠ [] := by simp
  have hreaches := hbase.newChild hname
  rw [Workdir.remove, Files.removeTree, hreaches.locate (Path.text_child_ne hname)]
  -- Nothing was below the name before, so nothing else is removed with the directory.
  exact hs.removeTree_put hne hfree

/-- A working directory is created if the directory for it is there and the disk takes it. -/
theorem createBelow_eq (c : Naming) (disk : Disk) (root : Path) (hs : s.Closed) :
    createBelow c disk root s =
      match s.locate (s.absolute root) with
      | .error e => .error (.system root e) s
      | .ok l =>
        let w : Workdir := ⟨(s.absolute root).child (c.name s l)⟩
        match disk.refusal [] with
        | some e => .error (.system root e) s
        | none =>
          match s.find? l with
          | none => .error (.system root .notFound) s
          | some (.file _) => .error (.system root .notDirectory) s
          | some .directory =>
            match disk.refusal ["source"] with
            | some e => .error (.system w.source e) s
            | none => .ok w (withWorkdir s (l ++ [c.name s l])) := by
  rw [createBelow_steps]
  cases hlocate : s.locate (s.absolute root) with
  | error e => rfl
  | ok l =>
    have hname := c.proper s l
    dsimp only
    cases hfirst : disk.refusal [] with
    | some e => rw [Disk.allow_of_refused hfirst]
    | none =>
      rw [Disk.allow_of_taken hfirst]
      dsimp only
      cases hl : s.find? l with
      | none => rw [createDirectory_in_missing hlocate hname hl]
      | some e =>
        cases e with
        | file contents => rw [createDirectory_in_file hlocate hname hl]
        | directory =>
          have hbase := reaches_of_locate hlocate hl
          rw [createDirectory_child hbase hname (c.free s l)]
          dsimp only
          cases hsource : disk.refusal ["source"] with
          | some e =>
            rw [Disk.allow_of_refused hsource]
            dsimp only
            rw [remove_new hs hbase hname (c.free s l)]
          | none =>
            rw [Disk.allow_of_taken hsource, createDirectory_source hs hbase hname (c.free s l)]

/-- Either a working directory is created, in the directory for it, or nothing is. -/
theorem createBelow_cases (c : Naming) (disk : Disk) (root : Path) (hs : s.Closed) :
    (∃ p e, createBelow c disk root s = .error (.system p e) s) ∨
      ∃ l, s.Reaches (s.absolute root) l ∧ createBelow c disk root s =
        .ok ⟨(s.absolute root).child (c.name s l)⟩ (withWorkdir s (l ++ [c.name s l])) := by
  rw [createBelow_eq c disk root hs]
  cases hlocate : s.locate (s.absolute root) with
  | error e => exact Or.inl ⟨_, e, rfl⟩
  | ok l =>
    cases disk.refusal [] with
    | some e => exact Or.inl ⟨_, e, rfl⟩
    | none =>
      dsimp only
      cases hl : s.find? l with
      | none => exact Or.inl ⟨_, .notFound, rfl⟩
      | some e =>
        cases e with
        | file contents => exact Or.inl ⟨_, .notDirectory, rfl⟩
        | directory =>
          cases disk.refusal ["source"] with
          | some e => exact Or.inl ⟨_, e, rfl⟩
          | none => exact Or.inr ⟨l, reaches_of_locate hlocate hl, rfl⟩

/-! ## Inside a working directory -/

/-- A store with a working directory at `l`, made of the store `s₀`. -/
structure Opened (s₀ : Store) (w : Workdir) (l : Location) (s : Store) : Prop where
  current : s.current = s₀.current
  closed : s.Closed
  reaches : s.Reaches w.path l
  nonroot : l ≠ []
  /-- The way to the working directory does not lead through it. -/
  direct : ∀ m ∈ w.path.places s.current, l <+: m → m = l
  frame : ∀ m, ¬ l <+: m → s.find? m = s₀.find? m

namespace Opened

variable {s₀ : Store} {w : Workdir} {e : Entry} {rest : Location}

/-- A place inside may change, if its parent is there and it stays a directory if it was one. -/
theorem put (h : Opened s₀ w l s) (hrest : rest ≠ [])
    (hparent : s.find? (l ++ rest.dropLast) = some .directory)
    (hkeep : s.find? (l ++ rest) = some .directory → e = .directory) :
    Opened s₀ w l (s.put (l ++ rest) e) := by
  have hne : l ++ rest ≠ [] := fun hnil => hrest (List.append_eq_nil_iff.mp hnil).2
  refine ⟨h.current, h.closed.put hne ?_ hkeep, h.reaches.put hne hkeep, h.nonroot, h.direct,
    fun m hm => ?_⟩
  · rwa [List.dropLast_append_of_ne_nil hrest]
  · have hother : m ≠ l ++ rest := by
      rintro rfl
      exact hm (List.prefix_append l rest)
    rw [Store.find?_put hne, if_neg hother]
    exact h.frame m hm

theorem stands (h : Opened s₀ w l s) : w.Stands s l :=
  ⟨h.closed, h.reaches, h.nonroot, h.direct⟩

theorem run {r : Runner} (hr : r.Confined) (h : Opened s₀ w l s) :
    Opened s₀ w l (r w.toRun s).store := by
  have hstands := hr.stands h.stands
  refine ⟨(hr.current w.toRun s).trans h.current, hstands.closed, hstands.reaches, h.nonroot,
    hstands.direct, fun m hm => ?_⟩
  rw [hr.frame h.reaches (fun hbelow => absurd hbelow hm)]
  exact h.frame m hm

/-- A new working directory. -/
theorem new {base : Path} {name : String} (hs : s.Closed) (hbase : s.Reaches base l)
    (hname : ProperName name) (hfree : s.find? (l ++ [name]) = none) :
    Opened s ⟨base.child name⟩ (l ++ [name]) (withWorkdir s (l ++ [name])) := by
  have hne : l ++ [name] ≠ [] := by simp
  -- The path goes through the places of the base, and ends at the new one.
  have hplaces : (base.child name).places s.current = base.places s.current ++ [l ++ [name]] := by
    rw [Path.places, Path.way_child hname, Path.goal_child hname, hbase.leads]
  have hreaches := hbase.newChild hname
  have hfirst : Opened s ⟨base.child name⟩ (l ++ [name]) (s.put (l ++ [name]) .directory) := by
    refine ⟨rfl, hs.put hne ?_ (fun _ => rfl), hreaches, hne, fun m hm hbelow => ?_, fun m hm => ?_⟩
    · rw [List.dropLast_concat]
      exact hbase.directory
    · rw [Store.current_put, hplaces, List.mem_append, List.mem_singleton] at hm
      -- What the path of the base leads through is there, other than what is below a free name.
      refine hm.resolve_left fun hm => ?_
      have hnone := hs.nothing_below hfree hbelow
      rw [hbase.directories m hm] at hnone
      cases hnone
    · have hother : m ≠ l ++ [name] := by
        rintro rfl
        exact hm (List.prefix_refl _)
      rw [Store.find?_put hne, if_neg hother]
  exact hfirst.put (List.cons_ne_nil _ _) (by simpa using hreaches.directory) fun _ => rfl

end Opened

/-! ## Writing the sources -/

/-- The store with the sources of a run. -/
def withSources (s : Store) (l : Location) (request conf : String) : Store :=
  (s.put (l ++ ["source", "index.rst"]) (.file request.toUTF8)).put (l ++ ["source", "conf.py"])
    (.file conf.toUTF8)

theorem properName_index : ProperName "index.rst" := by decide

theorem properName_conf : ProperName "conf.py" := by decide

/-- A text is written into a directory, unless there is a directory in its place. -/
theorem writeText_child {p : Path} {name text : String} (h : s.Reaches p l)
    (hname : ProperName name) (hfree : s.find? (l ++ [name]) ≠ some .directory) :
    Files.writeText (p.child name) text s = .ok () (s.put (l ++ [name]) (.file text.toUTF8)) := by
  rw [Files.writeText, Files.write_eq, h.locate_child hname]
  dsimp only
  rw [if_neg hfree]

variable {w : Workdir} {s₀ : Store}

/-- The first file of the sources that a disk refuses, with its error. -/
def Disk.refusedSource? (disk : Disk) : Option (String × SystemError) :=
  ["index.rst", "conf.py"].findSome? fun name => (disk.refusal ["source", name]).map (name, ·)

/-- The steps of writing the sources. -/
theorem prepareOn_steps (w : Workdir) (disk : Disk) (request conf : String) (s : Store) :
    w.prepareOn disk request conf s =
      match disk.allow ["source", "index.rst"]
          (Files.writeText (w.source.child "index.rst") request) s with
      | .error e s => .error (.system (w.source.child "index.rst") e) s
      | .ok _ s =>
        match disk.allow ["source", "conf.py"]
            (Files.writeText (w.source.child "conf.py") conf) s with
        | .error e s => .error (.system (w.source.child "conf.py") e) s
        | .ok _ s => .ok () s := by
  have hconf (s : Store) : Files.mapError (Error.system (w.source.child "conf.py"))
      (disk.allow ["source", "conf.py"] (Files.writeText (w.source.child "conf.py") conf)) s =
        match disk.allow ["source", "conf.py"]
            (Files.writeText (w.source.child "conf.py") conf) s with
        | .error e s => .error (.system (w.source.child "conf.py") e) s
        | .ok _ s => .ok () s := by
    rw [Files.mapError]
    cases disk.allow ["source", "conf.py"] (Files.writeText (w.source.child "conf.py") conf) s <;> rfl
  unfold Workdir.prepareOn
  rw [Files.bind_apply, Files.mapError]
  cases disk.allow ["source", "index.rst"]
    (Files.writeText (w.source.child "index.rst") request) s with
  | error e s => rfl
  | ok _ s => exact hconf s

/-- The store with the request file. -/
def withRequest (s : Store) (l : Location) (request : String) : Store :=
  s.put (l ++ ["source", "index.rst"]) (.file request.toUTF8)

/-- A store with a new working directory at `l`, made of the store `s₀`: there is a directory for the
sources, and nothing is in it. -/
structure Fresh (s₀ : Store) (w : Workdir) (l : Location) (s : Store) : Prop
    extends Opened s₀ w l s where
  source : s.find? (l ++ ["source"]) = some .directory
  empty : ∀ name, s.find? (l ++ ["source", name]) = none

namespace Fresh

/-- No directory takes the place of a source. -/
theorem free (h : Fresh s₀ w l s) (name : String) :
    s.find? (l ++ ["source", name]) ≠ some .directory := by
  rw [h.empty name]
  nofun

/-- The first source is written into the directory for them. -/
theorem writeText_request (h : Fresh s₀ w l s) (request : String) :
    Files.writeText (w.source.child "index.rst") request s = .ok () (withRequest s l request) := by
  have hreaches := h.reaches.child properName_source h.source
  have hnot : s.find? (l ++ ["source"] ++ ["index.rst"]) ≠ some .directory := by
    rw [List.append_assoc]
    exact h.free _
  rw [show w.source.child "index.rst" = (w.path.child "source").child "index.rst" from rfl,
    writeText_child hreaches properName_index hnot, List.append_assoc]
  rfl

/-- The second one is written beside it. -/
theorem writeText_conf (h : Fresh s₀ w l s) (request conf : String) :
    Files.writeText (w.source.child "conf.py") conf (withRequest s l request) =
      .ok () (withSources s l request conf) := by
  have hne : l ++ ["source", "index.rst"] ≠ [] := by simp
  have hreaches : (withRequest s l request).Reaches (w.path.child "source") (l ++ ["source"]) :=
    (h.reaches.child properName_source h.source).put hne fun hd => absurd hd (h.free _)
  have hnot : (withRequest s l request).find? (l ++ ["source"] ++ ["conf.py"]) ≠
      some .directory := by
    rw [withRequest, List.append_assoc, Store.find?_put hne, if_neg (by simp)]
    exact h.free _
  rw [show w.source.child "conf.py" = (w.path.child "source").child "conf.py" from rfl,
    writeText_child hreaches properName_conf hnot, List.append_assoc]
  rfl

theorem withRequest (h : Fresh s₀ w l s) (request : String) :
    Opened s₀ w l (Sphinx.withRequest s l request) :=
  h.put (List.cons_ne_nil _ _) h.source fun hd => absurd hd (h.free _)

theorem withSources (h : Fresh s₀ w l s) (request conf : String) :
    Opened s₀ w l (Sphinx.withSources s l request conf) := by
  have hne : l ++ ["source", "index.rst"] ≠ [] := by simp
  refine (h.withRequest request).put (List.cons_ne_nil _ _) ?_ fun hd => ?_
  · rw [Sphinx.withRequest, Store.find?_put hne, if_neg (by simp)]
    exact h.source
  · rw [Sphinx.withRequest, Store.find?_put hne, if_neg (by simp)] at hd
    exact absurd hd (h.free _)

/-- The sources are written if the disk takes them. -/
theorem prepareOn_of_taken (h : Fresh s₀ w l s) (hdisk : disk.refusedSource? = none)
    (request conf : String) :
    w.prepareOn disk request conf s = .ok () (Sphinx.withSources s l request conf) := by
  have htaken := List.findSome?_eq_none_iff.mp hdisk
  simp only [List.forall_mem_cons, Option.map_eq_none_iff] at htaken
  rw [prepareOn_steps, Disk.allow_of_taken htaken.1, h.writeText_request]
  dsimp only
  rw [Disk.allow_of_taken htaken.2.1, h.writeText_conf]

/-- If the disk refuses one of them, that is the error, and the working directory is still there. -/
theorem prepareOn_of_refused (h : Fresh s₀ w l s) {name : String} {e : SystemError}
    (hdisk : disk.refusedSource? = some (name, e)) (request conf : String) :
    ∃ s', Opened s₀ w l s' ∧
      w.prepareOn disk request conf s = .error (.system (w.source.child name) e) s' := by
  unfold Disk.refusedSource? at hdisk
  rw [prepareOn_steps]
  cases hfirst : disk.refusal ["source", "index.rst"] with
  | some _ =>
    rw [List.findSome?_cons, hfirst] at hdisk
    cases hdisk
    rw [Disk.allow_of_refused hfirst]
    exact ⟨s, h.toOpened, rfl⟩
  | none =>
    rw [List.findSome?_cons, hfirst, Option.map_none, List.findSome?_cons] at hdisk
    cases hsecond : disk.refusal ["source", "conf.py"] with
    | none =>
      rw [hsecond] at hdisk
      cases hdisk
    | some _ =>
      rw [hsecond] at hdisk
      cases hdisk
      rw [Disk.allow_of_taken hfirst, h.writeText_request]
      dsimp only
      rw [Disk.allow_of_refused hsecond]
      exact ⟨_, h.withRequest request, rfl⟩

end Fresh

/-- Only sources are refused by name. -/
theorem Disk.properName_of_refused {name : String} {e : SystemError}
    (h : disk.refusedSource? = some (name, e)) : ProperName name := by
  obtain ⟨name', hmem, hname⟩ := List.exists_of_findSome?_eq_some h
  obtain ⟨_, -, heq⟩ := Option.map_eq_some_iff.mp hname
  cases heq
  simp only [List.mem_cons, List.not_mem_nil, or_false] at hmem
  rcases hmem with rfl | rfl
  · exact properName_index
  · exact properName_conf

/-- What a new working directory holds. -/
theorem find?_withWorkdir (hs : s.Closed) (hl : l ≠ []) (hfree : s.find? l = none)
    (rest : Location) : (withWorkdir s l).find? (l ++ rest) =
      if rest = [] ∨ rest = ["source"] then some .directory else none := by
  have hne : l ++ ["source"] ≠ [] := by simp
  have hself : l ++ rest = l ↔ rest = [] := by simp
  unfold withWorkdir
  rw [Store.find?_put hne, Store.find?_put hl]
  simp only [List.append_cancel_left_eq, hself, hs.nothing_below hfree (List.prefix_append l rest)]
  by_cases hrest : rest = []
  · simp [hrest]
  · simp [hrest]

/-- A working directory that has just been created is new. -/
theorem Opened.fresh {base : Path} {name : String} (hs : s.Closed) (hbase : s.Reaches base l)
    (hname : ProperName name) (hfree : s.find? (l ++ [name]) = none) :
    Fresh s ⟨base.child name⟩ (l ++ [name]) (withWorkdir s (l ++ [name])) := by
  have hopened := Opened.new hs hbase hname hfree
  have hholds := find?_withWorkdir hs hopened.nonroot hfree
  refine ⟨hopened, ?_, fun name' => ?_⟩
  · rw [hholds]
    exact if_pos (Or.inr rfl)
  · rw [hholds]
    exact if_neg (by simp)

/-- New working directories with equal sources hold the same. -/
theorem twin_withSources {m : Location} (hs : s.Closed) (ht : t.Closed) (hl : l ≠ []) (hm : m ≠ [])
    (hsfree : s.find? l = none) (htfree : t.find? m = none) (request conf : String) :
    Twin l m (withSources (withWorkdir s l) l request conf)
      (withSources (withWorkdir t m) m request conf) := by
  intro rest
  unfold withSources
  rw [Store.find?_put (by simp), Store.find?_put (by simp), Store.find?_put (by simp),
    Store.find?_put (by simp), find?_withWorkdir hs hl hsfree, find?_withWorkdir ht hm htfree]
  simp only [List.append_cancel_left_eq]

/-! ## Reading the output -/

theorem properName_build : ProperName "build" := by decide

theorem properName_xml : ProperName "index.xml" := by decide

/-- In working directories that hold the same, the same output is found. -/
theorem Twin.resultFile {m : Location} {w' : Workdir} (h : Twin l m s t)
    (hs : s.Reaches w.path l) (ht : t.Reaches w'.path m) :
    s.isFile w.resultFile = t.isFile w'.resultFile ∧
      s.readText w.resultFile = t.readText w'.resultFile := by
  have hlocate : s.locate w.resultFile = s.walk l ["build", "index.xml"] :=
    hs.locate_grandchild properName_build properName_xml
  have hlocate' : t.locate w'.resultFile = t.walk m ["build", "index.xml"] :=
    ht.locate_grandchild properName_build properName_xml
  have hdirectory := h ["build"]
  have hfile := h ["build", "index.xml"]
  -- The path is followed into both directories, and each step asks for what is there.
  have hfollow (here : Location) : Store.follow (Store.follow here "build") "index.xml" =
      here ++ ["build", "index.xml"] := by
    rw [properName_build.follow, properName_xml.follow, List.append_assoc]
    rfl
  unfold Store.isFile Store.entry? Store.readText
  rw [hlocate, hlocate', Store.walk, Store.walk, Store.walk, Store.walk, Store.walk, Store.walk,
    hs.directory, ht.directory, hfollow, hfollow, properName_build.follow,
    properName_build.follow, hdirectory]
  dsimp only
  cases t.find? (m ++ ["build"]) with
  | none => exact ⟨rfl, rfl⟩
  | some e =>
    cases e with
    | file contents => exact ⟨rfl, rfl⟩
    | directory =>
      dsimp only
      rw [hfile]
      exact ⟨rfl, rfl⟩

/-- Looking at the output changes no file. -/
theorem collect_store (w : Workdir) (names : List String) (s : Store) :
    (Builder.collect w names s).store = s := by
  rw [Builder.collect_eq, Builder.readResult_eq]
  split
  · rename_i heq
    split at heq
    · split at heq
      · cases heq
      · cases heq
        rfl
    · cases heq
      rfl
  · rename_i heq
    split at heq
    · split at heq
      · cases heq
        split <;> rfl
      · cases heq
    · cases heq

/-- The output has the same name in all working directories. -/
theorem resultFile_alike {before : String} {n n' : Nat} {w w' : Workdir}
    (hw : w.path = numbered before "" n) (hw' : w'.path = numbered before "" n') :
    PathAlike w.resultFile w'.resultFile := by
  unfold Workdir.resultFile Workdir.output
  rw [hw, hw', child_numbered properName_build (by decide),
    child_numbered properName_build (by decide), child_numbered properName_xml (by decide),
    child_numbered properName_xml (by decide)]
  exact .numbered _ _ _ _

/-- In working directories that hold the same, the same is found about modules. -/
theorem collect_alike {m : Location} {w' : Workdir} (hfile : PathAlike w.resultFile w'.resultFile)
    (h : Twin l m s t) (hs : s.Reaches w.path l) (ht : t.Reaches w'.path m) (names : List String) :
    Both Error.Alike Eq (Builder.collect w names s).outcome (Builder.collect w' names t).outcome := by
  obtain ⟨hisFile, hread⟩ := h.resultFile hs ht
  rw [Builder.collect_eq, Builder.collect_eq, Builder.readResult_eq, Builder.readResult_eq, hisFile,
    hread]
  by_cases hthere : t.isFile w'.resultFile = true
  · rw [if_pos hthere, if_pos hthere]
    cases t.readText w'.resultFile with
    | error e => exact .error (.system hfile e)
    | ok xml =>
      dsimp only
      cases Findings.ofOutput names xml with
      | error e => exact .error (.same e)
      | ok found => exact .ok rfl
  · rw [if_neg hthere, if_neg hthere]
    exact .error (.noOutput hfile)

/-! ## Building in a working directory -/

/-- What is made of a build: an error, or the document with the warnings. -/
def Built.view (built : Built) : Except Error (Document × List String) :=
  built.result.map fun report => (built.document, report.warnings)

namespace Builder

variable {b : Builder} {d : Document}

/-- The end of a build, with what was found in the output. -/
def finish (b : Builder) (w : Workdir) (d : Document) :
    EStateM.Result Error Store (Findings × Nat) → Built
  | .error e s => ⟨.error e, d, w.remove s⟩
  | .ok (found, dropped) s => ⟨.ok (b.reportOf d w found dropped), fillDocument found d,
      if b.keepWorkdir then s else w.remove s⟩

/-- A build whose sources could not be written. -/
theorem buildIn_refused {e : Error}
    (hprepare : w.prepareOn b.disk (RequestFile.ofDocument d).text b.conf.text s = .error e t) :
    b.buildIn w d s = ⟨.error e, d, w.remove t⟩ := by
  unfold buildIn
  dsimp only
  rw [run_eq, hprepare]

/-- A build once its sources have been written. -/
theorem buildIn_eq
    (hprepare : w.prepareOn b.disk (RequestFile.ofDocument d).text b.conf.text s = .ok () t) :
    b.buildIn w d s = match b.runner w.toRun t with
      | .error e s => ⟨.error e, d, w.remove s⟩
      | .ok outcome s =>
        if outcome.isSuccess then b.finish w d (collect w (requestedModules d) s)
        else ⟨.error (.failed outcome.exitCode? outcome.stderr), d, s⟩ := by
  unfold buildIn
  dsimp only
  rw [run_eq, hprepare]
  rfl

/-- How a build ends once its sources have been written, and what it leaves. -/
inductive Ending (b : Builder) (w : Workdir) (d : Document) (t : Store) : Built → Prop
  /-- Sphinx could not be run. -/
  | unstarted {e : Error} {s' : Store} (hrun : b.runner w.toRun t = .error e s') :
    Ending b w d t ⟨.error e, d, w.remove s'⟩
  /-- Sphinx has failed. -/
  | failed {outcome : Outcome} {s' : Store} (hrun : b.runner w.toRun t = .ok outcome s') :
    Ending b w d t ⟨.error (.failed outcome.exitCode? outcome.stderr), d, s'⟩
  /-- The output could not be used. -/
  | unread {outcome : Outcome} {e : Error} {s' : Store} (hrun : b.runner w.toRun t = .ok outcome s')
    (hcollect : collect w (requestedModules d) s' = .error e s') :
    Ending b w d t ⟨.error e, d, w.remove s'⟩
  /-- The document has been filled. -/
  | filled {outcome : Outcome} {found : Findings} {dropped : Nat} {s' : Store}
    (hrun : b.runner w.toRun t = .ok outcome s')
    (hcollect : collect w (requestedModules d) s' = .ok (found, dropped) s') :
    Ending b w d t ⟨.ok (b.reportOf d w found dropped), fillDocument found d,
      if b.keepWorkdir then s' else w.remove s'⟩

/-- A build that has written its sources ends in one of these ways. -/
theorem buildIn_ending
    (hprepare : w.prepareOn b.disk (RequestFile.ofDocument d).text b.conf.text s = .ok () t) :
    b.Ending w d t (b.buildIn w d s) := by
  rw [buildIn_eq hprepare]
  cases hrun : b.runner w.toRun t with
  | error e s' => exact .unstarted hrun
  | ok outcome s' =>
    dsimp only
    split
    · have hstore := collect_store w (requestedModules d) s'
      cases hcollect : collect w (requestedModules d) s' with
      | error e s'' =>
        rw [hcollect] at hstore
        obtain rfl : s'' = s' := hstore
        exact .unread hrun hcollect
      | ok found s'' =>
        rw [hcollect] at hstore
        obtain rfl : s'' = s' := hstore
        exact .filled hrun hcollect
    · exact .failed hrun

/-- If what was found is alike, so is what comes of it. -/
theorem finish_alike {w' : Workdir} {r r' : EStateM.Result Error Store (Findings × Nat)}
    (h : Both Error.Alike Eq r.outcome r'.outcome) :
    Both Error.Alike Eq (b.finish w d r).view (b.finish w' d r').view := by
  rcases h.cases with ⟨e, f, s, t, rfl, rfl, herror⟩ | ⟨found, _, s, t, rfl, rfl, rfl⟩
  · exact .error herror
  · exact .ok rfl

/-- The working directory is all that a build has changed when it comes to removing it. -/
theorem buildIn_store (hb : b.runner.Confined) (h : Fresh s₀ w l s) :
    ∃ s', Opened s₀ w l s' ∧ ((b.buildIn w d s).store = s' ∨ (b.buildIn w d s).store = w.remove s') := by
  cases hdisk : b.disk.refusedSource? with
  | some refused =>
    obtain ⟨t, hopened, hprepare⟩ := h.prepareOn_of_refused hdisk (RequestFile.ofDocument d).text
      b.conf.text
    rw [buildIn_refused hprepare]
    exact ⟨t, hopened, Or.inr rfl⟩
  | none =>
    have hprepare := h.prepareOn_of_taken hdisk (RequestFile.ofDocument d).text b.conf.text
    have hafter := (h.withSources (RequestFile.ofDocument d).text b.conf.text).run hb
    have hending := buildIn_ending hprepare
    refine ⟨_, hafter, ?_⟩
    generalize b.buildIn w d s = built at hending ⊢
    cases hending with
    | unstarted hrun => exact Or.inr (by rw [hrun]; rfl)
    | failed hrun => exact Or.inl (by rw [hrun]; rfl)
    | unread hrun _ => exact Or.inr (by rw [hrun]; rfl)
    | filled hrun _ =>
      rw [hrun]
      dsimp only
      split
      · exact Or.inl rfl
      · exact Or.inr rfl

/-- What comes of a build is the same in working directories that hold the same once the sources have
been written. -/
theorem buildIn_alike_of_prepared (hb : b.runner.Confined) {base : Path} {n n' : Nat} {m : Location}
    {t₀ r r' : Store} (hs : Opened s₀ ⟨base.child (workdirName n)⟩ l r)
    (ht : Opened t₀ ⟨base.child (workdirName n')⟩ m r') (htwin : Twin l m r r')
    (hprepare : (Workdir.mk (base.child (workdirName n))).prepareOn b.disk
      (RequestFile.ofDocument d).text b.conf.text s = .ok () r)
    (hprepare' : (Workdir.mk (base.child (workdirName n'))).prepareOn b.disk
      (RequestFile.ofDocument d).text b.conf.text t = .ok () r') :
    Both Error.Alike Eq (b.buildIn ⟨base.child (workdirName n)⟩ d s).view
      (b.buildIn ⟨base.child (workdirName n')⟩ d t).view := by
  obtain ⟨before, hbase⟩ := exists_numbered base
  have hpath (k : Nat) : (Workdir.mk (base.child (workdirName k))).path = numbered before "" k := by
    dsimp only
    exact hbase k
  have hfile : PathAlike (Workdir.mk (base.child (workdirName n))).resultFile
      (Workdir.mk (base.child (workdirName n'))).resultFile := resultFile_alike (hpath n) (hpath n')
  have hreaches := hs.reaches
  have hreaches' := ht.reaches
  dsimp only at hreaches hreaches'
  obtain ⟨houtcome, hafter⟩ := hb.twin hreaches hreaches' htwin
  -- Both runs end alike, and what they leave in the working directories is the same.
  have hcollect := collect_alike hfile hafter (hs.run hb).reaches (ht.run hb).reaches
    (requestedModules d)
  rw [buildIn_eq hprepare, buildIn_eq hprepare']
  rcases houtcome.cases with ⟨e, f, s', t', hrun, hrun', h⟩ | ⟨o, o', s', t', hrun, hrun', h⟩
  · rw [hrun, hrun']
    exact .error h
  · rw [hrun, hrun'] at hcollect ⊢
    have hsuccess : o.isSuccess = o'.isSuccess := by
      rw [Outcome.isSuccess, Outcome.isSuccess, h.exitCode]
    dsimp only
    rw [hsuccess]
    split
    · exact finish_alike hcollect
    · rw [h.exitCode]
      exact .error (.failed h.stderr _)

/-- What comes of a build is the same in new working directories that hold the same sources. -/
theorem buildIn_alike (hb : b.runner.Confined) {base : Path} {n n' : Nat} {m : Location} {t₀ : Store}
    (hs : Fresh s₀ ⟨base.child (workdirName n)⟩ l s) (ht : Fresh t₀ ⟨base.child (workdirName n')⟩ m t)
    (htwin : Twin l m (withSources s l (RequestFile.ofDocument d).text b.conf.text)
      (withSources t m (RequestFile.ofDocument d).text b.conf.text)) :
    Both Error.Alike Eq (b.buildIn ⟨base.child (workdirName n)⟩ d s).view
      (b.buildIn ⟨base.child (workdirName n')⟩ d t).view := by
  cases hdisk : b.disk.refusedSource? with
  | some refused =>
    -- The disk refuses the same source in both.
    obtain ⟨_, -, hprepare⟩ := hs.prepareOn_of_refused hdisk (RequestFile.ofDocument d).text
      b.conf.text
    obtain ⟨_, -, hprepare'⟩ := ht.prepareOn_of_refused hdisk (RequestFile.ofDocument d).text
      b.conf.text
    rw [buildIn_refused hprepare, buildIn_refused hprepare']
    exact .error (.system (source_alike base n n' (Disk.properName_of_refused hdisk)) _)
  | none =>
    exact buildIn_alike_of_prepared hb (hs.withSources _ _) (ht.withSources _ _) htwin
      (hs.prepareOn_of_taken hdisk _ _) (ht.prepareOn_of_taken hdisk _ _)

/-! ## Building with a new working directory -/

/-- A place at or below a working directory that could be created. -/
def InWorkdir (b : Builder) (s : Store) (m : Location) : Prop :=
  ∃ l n, s.Reaches (s.absolute b.root) l ∧ s.find? (l ++ [workdirName n]) = none ∧
    l ++ [workdirName n] <+: m

/-- A build changes nothing outside of its working directory. -/
theorem buildBelow_store (hb : b.runner.Confined) (hs : s.Closed) (c : Naming) (d : Document) :
    (b.buildBelow c d s).store.Closed ∧ (b.buildBelow c d s).store.current = s.current ∧
      ∀ m, ¬ b.InWorkdir s m → (b.buildBelow c d s).store.find? m = s.find? m := by
  unfold buildBelow
  rcases createBelow_cases c b.disk b.root hs with ⟨p, e, hcreate⟩ | ⟨l, hbase, hcreate⟩
  · rw [hcreate]
    exact ⟨hs, rfl, fun _ _ => rfl⟩
  · have hfree := c.free s l
    obtain ⟨s', hopened, hstore⟩ := buildIn_store (d := d) hb
      (Opened.fresh hs hbase (c.proper s l) hfree)
    -- A place of no working directory is not in the new one either.
    have hout (m : Location) (hm : ¬ b.InWorkdir s m) : ¬ l ++ [c.name s l] <+: m := by
      intro hbelow
      obtain ⟨n, hname⟩ := c.usual s l
      rw [hname] at hfree hbelow
      exact hm ⟨l, n, hbase, hfree, hbelow⟩
    rw [hcreate]
    dsimp only
    rcases hstore with hstore | hstore
    · rw [hstore]
      exact ⟨hopened.closed, hopened.current, fun m hm => hopened.frame m (hout m hm)⟩
    · rw [hstore, hopened.stands.remove_eq (Path.text_child_ne (c.proper s l))]
      refine ⟨hopened.closed.removeTree hopened.nonroot, hopened.current, fun m hm => ?_⟩
      rw [Store.find?_removeTree hopened.nonroot, if_neg (hout m hm)]
      exact hopened.frame m (hout m hm)

/-- The same directory is meant in stores with the same current directory. -/
theorem absolute_congr {p : Path} (h : s.current = t.current) : s.absolute p = t.absolute p := by
  unfold Store.absolute Store.currentPath
  rw [h]

/-- What comes of a build depends on nothing but the way to its working directory. -/
theorem buildBelow_alike (hb : b.runner.Confined) (hs : s.Closed) (ht : t.Closed)
    (h : AgreeOn ((s.absolute b.root).places s.current) s t) (c c' : Naming) (d : Document) :
    Both Error.Alike Eq (b.buildBelow c d s).view (b.buildBelow c' d t).view := by
  have hbase : t.absolute b.root = s.absolute b.root := absolute_congr h.current.symm
  have hlocate : t.locate (s.absolute b.root) = s.locate (s.absolute b.root) :=
    (Store.locate_congr h.current fun m hm => Store.kind?_congr (h.find? m hm)).symm
  unfold buildBelow
  rw [createBelow_eq c b.disk b.root hs, createBelow_eq c' b.disk b.root ht, hbase, hlocate]
  cases hroot : s.locate (s.absolute b.root) with
  | error e => exact .error (.same _)
  | ok l =>
    -- The way to the root is in both stores, so both creations see the same entry there.
    obtain ⟨-, hgoal⟩ := Store.locate_eq_ok hroot
    have hl := h.find? l (List.mem_append_right _ (List.mem_singleton.mpr hgoal))
    obtain ⟨n, hname⟩ := c.usual s l
    obtain ⟨n', hname'⟩ := c'.usual t l
    dsimp only
    rw [← hl, hname, hname']
    cases b.disk.refusal [] with
    | some e => exact .error (.same _)
    | none =>
      dsimp only
      cases hthere : s.find? l with
      | none => exact .error (.same _)
      | some e =>
        cases e with
        | file contents => exact .error (.same _)
        | directory =>
          dsimp only
          cases b.disk.refusal ["source"] with
          | some e => exact .error (.system (child_alike _ n n' properName_source) e)
          | none =>
            have hbase := reaches_of_locate hroot hthere
            have hbase' : t.Reaches (s.absolute b.root) l := by
              refine hbase.mono h.current fun m hm hdirectory => ?_
              rw [← h.find? m hm]
              exact hdirectory
            have hfresh := Opened.fresh hs hbase (c.proper s l) (c.free s l)
            have hfresh' := Opened.fresh ht hbase' (c'.proper t l) (c'.free t l)
            have htwin := twin_withSources hs ht hfresh.nonroot hfresh'.nonroot (c.free s l)
              (c'.free t l) (RequestFile.ofDocument d).text b.conf.text
            rw [hname] at hfresh htwin
            rw [hname'] at hfresh' htwin
            exact buildIn_alike hb hfresh hfresh' htwin

end Builder

end DocWeave.Sphinx
