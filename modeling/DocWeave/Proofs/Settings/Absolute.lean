import DocWeave.CommandLine.Build
import DocWeave.Proofs.Files.Creating
import DocWeave.Proofs.Settings.Loading
import DocWeave.Proofs.Sphinx.ConfProgram

/-!
# Which directories of settings are absolute

Directories in a configuration file are taken below the directory of the file. That one is found from
the path of the file, which is absolute if the file has been looked for, but stays as it was written if
the file has been asked for.

- `Path.isAbsolute_join`, `Path.isAbsolute_of_parent?`: how paths become absolute.
- `isAbsolute_discover`: a file that has been looked for has an absolute path.
- `Settings.directories`: the directories that Python or a build starts from.
- `absolute_iff`: when all of them are absolute, and which of them Python is told about.
-/

namespace DocWeave

/-! ## Absolute paths -/

namespace Path

variable {p q base : Path} {s : Store} {text : String}

/-- A path below another one is absolute if it was so by itself, or else if the other one is. -/
theorem isAbsolute_join (base p : Path) :
    (base.join p).isAbsolute = (p.isAbsolute || base.isAbsolute) := by
  by_cases hp : p.isAbsolute = true
  · rw [join, if_pos hp, hp, Bool.true_or]
  · have hhead : p.text.toList.head? ≠ some '/' := fun h => hp (decide_eq_true h)
    rw [Bool.eq_false_iff.mpr hp, Bool.false_or, join, if_neg hp]
    rcases hbase : base.text.toList with _ | ⟨c, rest⟩
    · -- nothing is put in between if the other path is empty
      simp [isAbsolute, hbase, hhead]
    · split <;> simp [isAbsolute, hbase]

theorem isAbsolute_of_start (h : ∀ cwd, q.start cwd = p.start cwd) : q.isAbsolute = p.isAbsolute := by
  have hstart := h ["."]
  unfold start at hstart
  cases hq : q.isAbsolute <;> cases hp : p.isAbsolute <;> simp [hq, hp] at hstart ⊢

/-- A path without its last name is absolute if the path is. -/
theorem isAbsolute_of_parent? (h : p.parent? = some q) : q.isAbsolute = p.isAbsolute :=
  isAbsolute_of_start fun _ => (stepsToCreate_of_parent? h).1

theorem isAbsolute_of_mem_ancestors (h : q ∈ p.ancestors) : q.isAbsolute = p.isAbsolute :=
  isAbsolute_of_start fun _ => (stepsToCreate_of_mem_ancestors h).1

/-- An absolute path without a parent leads to the root. -/
theorem goal_of_no_parent {cwd : Location} (h : p.parent? = none) (habsolute : p.isAbsolute = true) :
    p.goal cwd = [] := by
  have hnone : ∀ piece ∈ Text.split '/' (splitAnchor p.text.toList).2, isName piece = false := by
    unfold parent? at h
    dsimp only at h
    split at h
    · cases h
    · rename_i hpieces
      rw [piecesBackwards, List.dropWhile_eq_nil_iff] at hpieces
      simpa using hpieces
  obtain ⟨rest, hrest⟩ := List.head?_eq_some_iff.mp (of_decide_eq_true habsolute)
  -- What is left of the path are slashes and dots, and they lead nowhere else.
  rw [hrest] at hnone
  have hsteps : p.stepsToCreate = (pieces rest).map String.ofList := by
    rw [stepsToCreate_eq, hrest]
    exact congrArg _ (pieces_append_cons [] rest)
  rw [goal, start, if_pos habsolute, hsteps]
  exact Store.foldl_follow_dots _ fun step => eq_dot_of_not_isName hnone

/-- The directory of a file is absolute if the path of the file is. -/
theorem isAbsolute_directory (h : s.readText p = .ok text) :
    (p.parent?.getD ⟨"."⟩).isAbsolute = p.isAbsolute := by
  cases hparent : p.parent? with
  | some q => exact isAbsolute_of_parent? hparent
  | none =>
    cases habsolute : p.isAbsolute with
    | false => rfl
    | true =>
      -- the root is not a file
      obtain ⟨-, contents, hfound⟩ := Store.find?_of_readText h
      rw [goal_of_no_parent hparent habsolute, Store.find?_nil] at hfound
      cases hfound

end Path

theorem Store.isAbsolute_currentPath (s : Store) : s.currentPath.isAbsolute = true := by
  simp [currentPath, Path.isAbsolute]

namespace Settings

open CommandLine (builder)
open Sphinx (Conf statementsOf)

variable {s : Store} {env : Environment} {path? : Option Path} {path : Path}
  {overrides? : Option Overrides} {settings : Settings} {expanded : File}

/-- A file that has been looked for has an absolute path. -/
theorem isAbsolute_discover (h : discover s = some path) : path.isAbsolute = true := by
  obtain ⟨directory, hdirectory, rfl⟩ := List.mem_map.mp (List.mem_of_find?_eq_some h)
  rw [Path.child, Path.isAbsolute_join, Path.isAbsolute_of_mem_ancestors hdirectory,
    s.isAbsolute_currentPath, Bool.or_true]

/-- What a configuration file says is unique. -/
theorem Tells.unique {other : File} (h : Tells s env path expanded) (hother : Tells s env path other) :
    other = expanded := by
  obtain ⟨text, file, hread, hparse, hexpand⟩ := h
  obtain ⟨text', file', hread', hparse', hexpand'⟩ := hother
  obtain rfl := Except.ok.inj (hread.symm.trans hread')
  obtain rfl := Option.some.inj (hparse.symm.trans hparse')
  exact Except.ok.inj (hexpand'.symm.trans hexpand)

/-- The directories in which Python looks for modules, and the one for working directories. -/
def directories (settings : Settings) : List Path :=
  settings.pythonPath ++ settings.workDir?.toList

/-- The same in a file, as they are written. -/
def File.directories (file : File) : List Path :=
  (file.pythonPath ++ file.workDir?.toList).map (⟨·⟩)

theorem directories_resolve (path base : Path) (expanded : File) :
    (expanded.resolve path base).directories = expanded.directories.map base.join := by
  unfold directories File.directories File.resolve
  rw [List.map_map, List.map_append]
  cases expanded.workDir? <;> rfl

/-- All directories are absolute if they are below an absolute one, or if they are written so. -/
theorem absolute_resolve_iff (path base : Path) (expanded : File) :
    (∀ p ∈ (expanded.resolve path base).directories, p.isAbsolute = true) ↔
      base.isAbsolute = true ∨ ∀ p ∈ expanded.directories, p.isAbsolute = true := by
  rw [directories_resolve, List.forall_mem_map]
  simp only [Path.isAbsolute_join, Bool.or_eq_true]
  constructor
  · intro h
    by_cases hbase : base.isAbsolute = true
    · exact Or.inl hbase
    · exact Or.inr fun p hp => (h p hp).resolve_right hbase
  · rintro (hbase | hdirectories) p hp
    · exact Or.inr hbase
    · exact Or.inl (hdirectories p hp)

/-- Settings have absolute directories if the file has been looked for, or has been asked for by an
absolute path, or else if they are written so. -/
theorem absolute_directories_iff (h : load s env path? overrides? = .ok settings) :
    (∀ p ∈ settings.directories, p.isAbsolute = true) ↔
      ∀ path expanded, path? = some path → path.isAbsolute = false → Tells s env path expanded →
        ∀ p ∈ expanded.directories, p.isAbsolute = true := by
  obtain ⟨loaded, hloaded, hpythonPath, hworkDir⟩ := load_eq_ok h
  have hdirectories : settings.directories = loaded.directories := by
    rw [directories, directories, hpythonPath, hworkDir]
  rw [hdirectories]
  rcases loadFile_eq_ok hloaded with ⟨hnone, rfl⟩ | ⟨path, expanded, hpath, htells, rfl⟩
  · -- without a file there are no directories
    refine iff_of_true nofun fun path _ hpath => ?_
    rw [hpath] at hnone
    cases hnone
  · obtain ⟨text, -, hread, -⟩ := id htells
    rw [absolute_resolve_iff, Path.isAbsolute_directory hread]
    -- The directory of the file is relative only if the file has been asked for by a relative path.
    constructor
    · rintro (habsolute | hwritten) asked said rfl hrelative hsaid
      · obtain rfl := Option.some.inj hpath
        rw [habsolute] at hrelative
        cases hrelative
      · obtain rfl := Option.some.inj hpath
        rwa [htells.unique hsaid]
    · intro hwritten
      cases path? with
      | none => exact Or.inl (isAbsolute_discover hpath)
      | some asked =>
        obtain rfl := Option.some.inj hpath
        cases habsolute : asked.isAbsolute with
        | true => exact Or.inl rfl
        | false => exact Or.inr (hwritten asked expanded rfl habsolute htells)

/-- **Which directories are absolute.** The directories of settings are absolute if the file has been
looked for or has been asked for by an absolute path. If it has been asked for by a relative path, they
are as absolute as they are written. Those for modules are the ones that the configuration file of
Sphinx puts in front of the module path. -/
theorem absolute_iff (h : load s env path? overrides? = .ok settings) :
    ((∀ p ∈ settings.pythonPath ++ settings.workDir?.toList, p.isAbsolute = true) ↔
      ∀ path expanded, path? = some path → path.isAbsolute = false → Tells s env path expanded →
        ∀ text ∈ expanded.pythonPath ++ expanded.workDir?.toList,
          (⟨text⟩ : Path).isAbsolute = true) ∧
    ∀ host, ∃ statements, statementsOf (builder host settings).conf.text = some statements ∧
      ∀ directory, .insertPath directory ∈ statements ↔ ⟨directory⟩ ∈ settings.pythonPath := by
  constructor
  · have hiff := absolute_directories_iff h
    simp only [directories, File.directories, List.forall_mem_map] at hiff
    exact hiff
  · intro host
    refine ⟨_, Conf.statementsOf_text _, fun directory => ?_⟩
    have hpath (p : Path) : p.text = directory ↔ p = ⟨directory⟩ := by
      cases p
      simp
    simp [Conf.statements, builder, hpath]

/-- A file that has been asked for by its name has the directory for modules below the empty path. -/
theorem absolute_iff_relative :
    load (soleFile "[sphinx]\npython_path = ['src']\n") [] (some ⟨"autodoc.toml"⟩) none =
      .ok { pythonPath := [⟨"src"⟩], outputDir := ⟨"build"⟩, file? := some ⟨"autodoc.toml"⟩ } ∧
    ¬ ∀ p ∈ [(⟨"src"⟩ : Path)] ++ (none : Option Path).toList, p.isAbsolute = true := by
  have hload : load (soleFile "[sphinx]\npython_path = ['src']\n") [] (some ⟨"autodoc.toml"⟩) none =
      .ok { pythonPath := [⟨"src"⟩], outputDir := ⟨"build"⟩, file? := some ⟨"autodoc.toml"⟩ } := by
    decide +kernel
  have htells : Tells (soleFile "[sphinx]\npython_path = ['src']\n") [] ⟨"autodoc.toml"⟩
      { pythonPath := ["src"] } :=
    ⟨"[sphinx]\npython_path = ['src']\n", { pythonPath := ["src"] }, by decide +kernel,
      by decide +kernel, by decide +kernel⟩
  refine ⟨hload, fun habsolute => ?_⟩
  have hsrc := (absolute_iff hload).1.mp habsolute _ _ rfl (by decide +kernel) htells "src" (by simp)
  revert hsrc
  decide +kernel

end Settings

end DocWeave
