import DocWeave.Proofs.Files.Stores
import DocWeave.Settings.Load

/-!
# The steps of loading settings

- `File.expandAll_eq_ok`: what comes of a file when the values of environment variables are put in.
- `loadFile_of_readText`: which text counts.
- `Tells`: what a configuration file says; `loadFile_eq_ok`: settings come from that, or are the default.
- `load_eq_ok`: what the command line leaves alone.
-/

namespace DocWeave

namespace Store

variable {s : Store} {p : Path} {text : String}

/-- A path from which a text is read leads to a file. -/
theorem find?_of_readText (h : s.readText p = .ok text) :
    s.locate p = .ok (p.goal s.current) ∧
      ∃ contents, s.find? (p.goal s.current) = some (.file contents) := by
  unfold readText at h
  cases hl : s.locate p with
  | error e =>
    rw [hl] at h
    cases h
  | ok l =>
    obtain ⟨-, rfl⟩ := locate_eq_ok hl
    refine ⟨rfl, ?_⟩
    rw [hl] at h
    cases hfound : s.find? (p.goal s.current) with
    | none => simp [hfound] at h
    | some e => cases e with
      | directory => simp [hfound] at h
      | file contents => exact ⟨contents, rfl⟩

theorem pathExists_of_readText (h : s.readText p = .ok text) : s.pathExists p = true := by
  obtain ⟨hlocate, contents, hfound⟩ := find?_of_readText h
  rw [pathExists, entry?, hlocate]
  simp [hfound]

end Store

namespace Settings

variable {s : Store} {env : Environment} {path? : Option Path} {path : Path}
  {overrides? : Option Overrides} {file : File} {settings : Settings} {text : String}

/-! ## Steps that may fail -/

theorem bind_eq_ok {ε α β : Type} {x : Except ε α} {f : α → Except ε β} {b : β} :
    x >>= f = .ok b ↔ ∃ a, x = .ok a ∧ f a = .ok b := by
  cases x <;> simp [bind, Except.bind]

theorem bind_eq_error {ε α β : Type} {x : Except ε α} {f : α → Except ε β} {e : ε} :
    x >>= f = .error e ↔ x = .error e ∨ ∃ a, x = .ok a ∧ f a = .error e := by
  cases x <;> simp [bind, Except.bind]

/-! ## Expanding a file -/

namespace File

/-- A value that may be missing cannot be expanded if it refers to a variable that is not set. -/
theorem mapM_expandField_eq_error {field : String} {value? : Option String} {e : Error} :
    value?.mapM (expandField env field) = .error e ↔
      ∃ text name, value? = some text ∧ expand env text = .error name ∧ .unset field name = e := by
  cases value? with
  | none => exact ⟨nofun, nofun⟩
  | some text =>
    simp only [Option.mapM_some, expandField]
    cases hexpand : expand env text <;> simp [hexpand]

/-- What is left of it otherwise. -/
theorem mapM_expandField_eq_ok {field : String} {value? expanded? : Option String} :
    value?.mapM (expandField env field) = .ok expanded? ↔
      (value? = none ∧ none = expanded?) ∨
      ∃ text value, value? = some text ∧ expand env text = .ok value ∧ some value = expanded? := by
  cases value? with
  | none => simp [pure, Except.pure]
  | some text =>
    simp only [Option.mapM_some, expandField]
    cases hexpand : expand env text <;> simp [hexpand]

/-- A file whose values can be expanded: the four steps. -/
theorem expandAll_eq_ok {expanded : File} : file.expandAll env = .ok expanded ↔
    ∃ command? workDir? pythonPath outputDir?,
      file.command?.mapM (expandField env "sphinx.command") = .ok command? ∧
      file.workDir?.mapM (expandField env "sphinx.work_dir") = .ok workDir? ∧
      file.pythonPath.mapM (expandField env "sphinx.python_path") = .ok pythonPath ∧
      file.outputDir?.mapM (expandField env "output.dir") = .ok outputDir? ∧
      { file with
        command? := command?
        workDir? := workDir?
        pythonPath := pythonPath
        outputDir? := outputDir? } = expanded := by
  unfold expandAll
  simp only [bind_eq_ok, exists_and_left, pure, Except.pure, Except.ok.injEq]

end File

/-! ## Loading -/

/-- The settings are in the file that is asked for, or else in the one that applies. -/
theorem loadFile_of_readText (hpath : path?.or (discover s) = some path)
    (hread : s.readText path = .ok text) : loadFile s env path? = ofText env path text := by
  unfold loadFile
  cases path? with
  | some asked =>
    obtain rfl := Option.some.inj hpath
    simp only [Store.pathExists_of_readText hread, if_true, ofFile, hread]
  | none =>
    rw [Option.none_or] at hpath
    simp only [hpath, ofFile, hread]

/-- What a configuration file says: its text is well-formed, and its values can be expanded. -/
def Tells (s : Store) (env : Environment) (path : Path) (expanded : File) : Prop :=
  ∃ text file, s.readText path = .ok text ∧ (Toml.parse text).bind File.ofFields? = some file ∧
    file.expandAll env = .ok expanded

/-- Settings of a file come from what it says. -/
theorem ofFile_eq_ok (h : ofFile s env path = .ok settings) :
    ∃ expanded, Tells s env path expanded ∧
      settings = expanded.resolve path (path.parent?.getD ⟨"."⟩) := by
  unfold ofFile at h
  split at h
  · cases h
  · rename_i text hread
    unfold ofText at h
    obtain ⟨file, hparse, h⟩ := bind_eq_ok.mp h
    obtain ⟨expanded, hexpand, h⟩ := bind_eq_ok.mp h
    obtain ⟨-, -, h⟩ := bind_eq_ok.mp h
    -- The settings are checked as well, which changes nothing about them.
    refine ⟨expanded, ⟨text, file, hread, ?_, hexpand⟩, (Except.ok.inj h).symm⟩
    unfold File.parse at hparse
    split at hparse
    · rename_i hfile
      rw [hfile, Except.ok.inj hparse]
    · cases hparse

/-- Settings come from what a configuration file says, or are the default. -/
theorem loadFile_eq_ok (h : loadFile s env path? = .ok settings) :
    path?.or (discover s) = none ∧ settings = default s.currentPath ∨
    ∃ path expanded, path?.or (discover s) = some path ∧ Tells s env path expanded ∧
      settings = expanded.resolve path (path.parent?.getD ⟨"."⟩) := by
  unfold loadFile at h
  split at h
  · rename_i path
    split at h
    · obtain ⟨expanded, htells, hsettings⟩ := ofFile_eq_ok h
      exact Or.inr ⟨path, expanded, rfl, htells, hsettings⟩
    · cases h
  · split at h
    · rename_i path hdiscover
      obtain ⟨expanded, htells, hsettings⟩ := ofFile_eq_ok h
      exact Or.inr ⟨path, expanded, hdiscover, htells, hsettings⟩
    · rename_i hdiscover
      exact Or.inl ⟨hdiscover, (Except.ok.inj h).symm⟩

/-- The command line has no part in where Python looks for modules and where working directories are
created. -/
theorem load_eq_ok (h : load s env path? overrides? = .ok settings) :
    ∃ loaded, loadFile s env path? = .ok loaded ∧ settings.pythonPath = loaded.pythonPath ∧
      settings.workDir? = loaded.workDir? := by
  unfold load at h
  obtain ⟨loaded, hloaded, h⟩ := bind_eq_ok.mp h
  refine ⟨loaded, hloaded, ?_⟩
  cases overrides? with
  | none =>
    obtain rfl := Except.ok.inj h
    exact ⟨rfl, rfl⟩
  | some o =>
    obtain ⟨-, -, h⟩ := bind_eq_ok.mp h
    obtain rfl := Except.ok.inj h
    exact ⟨rfl, rfl⟩

/-- A store with nothing but a configuration file. -/
def soleFile (text : String) : Store :=
  { entries := [([fileName], .file text.toUTF8)] }

end Settings

end DocWeave
