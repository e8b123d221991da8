import DocWeave.Proofs.Settings.Loading

/-!
# The command line and the configuration file

What the command line sets stands in place of what the file sets. The file is expanded and checked
first, on its own, so that the values that are replaced have to make sense all the same.

- `Overrides.removeFrom`: the table of a file without the keys that the command line sets;
  `ofFields?_removeFrom`: what such a table sets.
- `Store.rewrite`: a store in which a file has another text.
- `File.settle`: the settings that a file gives below those of the command line; `load_eq_settle`.
- `Obstacle`: how a value that is replaced keeps settings from being loaded.
- `load_without_overridden`: apart from that, it makes no difference.
-/

namespace DocWeave

/-! ## Files with another text -/

namespace Store

variable {s t : Store} {p : Path} {l : Location} {text : String}

/-- The store in which a path leads to a file with some text. -/
def rewrite (s : Store) (p : Path) (text : String) : Store :=
  s.put (p.goal s.current) (.file text.toUTF8)

theorem goal_ne_nil (h : s.readText p = .ok text) : p.goal s.current ≠ [] := by
  intro hnil
  obtain ⟨-, contents, hfound⟩ := find?_of_readText h
  rw [hnil, find?_nil] at hfound
  cases hfound

/-- What is a file stays one, what is a directory stays one, and what is missing stays missing. -/
theorem kind?_rewrite (h : s.readText p = .ok text) (text' : String) (l : Location) :
    (s.rewrite p text').kind? l = s.kind? l := by
  obtain ⟨-, contents, hfound⟩ := find?_of_readText h
  rw [kind?, rewrite, find?_put (goal_ne_nil h)]
  split
  · rename_i heq
    rw [kind?, heq, hfound]
    rfl
  · rfl

/-- Another text in a file leads no path elsewhere. -/
theorem locate_rewrite (h : s.readText p = .ok text) (text' : String) (q : Path) :
    (s.rewrite p text').locate q = s.locate q :=
  locate_congr rfl fun l _ => kind?_rewrite h text' l

/-- What was a file is still one. -/
theorem isFile_rewrite (h : s.readText p = .ok text) (text' : String) (q : Path) :
    (s.rewrite p text').isFile q = s.isFile q := by
  unfold isFile entry?
  rw [locate_rewrite h]
  cases s.locate q with
  | error e => rfl
  | ok l =>
    have hkind := kind?_rewrite h text' l
    unfold kind? at hkind
    rcases hs : s.find? l with _ | _ | _ <;>
      rcases ht : (s.rewrite p text').find? l with _ | _ | _ <;> simp [hs, ht] at hkind ⊢

/-- The other text is what is read then. -/
theorem readText_rewrite (h : s.readText p = .ok text) (text' : String) :
    (s.rewrite p text').readText p = .ok text' := by
  have hutf8 : String.fromUTF8? text'.toUTF8 = some text' := dif_pos text'.isValidUTF8
  unfold readText
  rw [locate_rewrite h, (find?_of_readText h).1]
  simp only [rewrite, find?_put (goal_ne_nil h), if_pos, hutf8]

end Store

namespace Settings

open Toml (Value Fields)

variable {s : Store} {env : Environment} {path? : Option Path} {path : Path} {o : Overrides}
  {fields : Fields} {file : File} {settings : Settings} {text text' : String}

/-! ## Files without what the command line sets -/

/-- The keys of a part of a file that are left if some are removed. -/
def removeKeys (known removed : List String) (value : Value) : Value :=
  match File.partFields? known value with
  | some fields => .table (removed.foldl Fields.erase fields)
  | none => value

/-- A value, unless there is another one in its place. -/
def unlessGiven {α β : Type} (given? : Option α) (value? : Option β) : Option β :=
  if given?.isSome then none else value?

namespace Overrides

/-- The keys about Sphinx that the command line sets. -/
def sphinxKeys (o : Overrides) : List String :=
  (if o.command?.isSome then ["command"] else []) ++
    if o.keepWorkdir?.isSome then ["keep_workdir"] else []

/-- The keys about the written documents that the command line sets. -/
def outputKeys (o : Overrides) : List String :=
  (if o.outputDir?.isSome then ["dir"] else []) ++ if o.format?.isSome then ["format"] else []

/-- What is left of a part of a file, by the name of the part. -/
def removeFromPart (o : Overrides) (name : String) : Value → Value :=
  if name = "sphinx" then removeKeys File.sphinxKeys o.sphinxKeys
  else if name = "output" then removeKeys File.outputKeys o.outputKeys
  else id

/-- The table of a file without the keys that the command line sets. -/
def removeFrom (o : Overrides) (fields : Fields) : Fields :=
  fields.map fun (name, value) => (name, o.removeFromPart name value)

/-- What a file sets without what the command line sets. -/
def without (o : Overrides) (file : File) : File :=
  { file with
    command? := unlessGiven o.command? file.command?
    keepWorkdir? := unlessGiven o.keepWorkdir? file.keepWorkdir?
    outputDir? := unlessGiven o.outputDir? file.outputDir?
    format? := unlessGiven o.format? file.format? }

end Overrides

theorem get?_map (f : String → Value → Value) (fields : Fields) (name : String) :
    Fields.get? (fields.map fun (name, value) => (name, f name value)) name =
      (fields.get? name).map (f name) := by
  induction fields with
  | nil => rfl
  | cons field rest ih =>
    unfold Fields.get? at ih ⊢
    rw [List.map_cons, List.lookup_cons, List.lookup_cons, ih]
    by_cases hname : name = field.1
    · simp [hname]
    · simp [beq_eq_false_iff_ne.mpr hname]

/-- Keys that are removed are gone, the others are left. -/
theorem get?_foldl_erase (removed : List String) (fields : Fields) (key : String) :
    (removed.foldl Fields.erase fields).get? key =
      if key ∈ removed then none else fields.get? key := by
  induction removed generalizing fields with
  | nil => rfl
  | cons first removed ih =>
    rw [List.foldl_cons, ih, Fields.get?_erase]
    by_cases hfirst : key = first
    · simp [hfirst]
    · simp [hfirst]

/-- A part of which keys have been removed has what it had at the others. -/
theorem part?_removeFrom {name : String} {known removed : List String} {part : Fields}
    (hremove : o.removeFromPart name = removeKeys known removed)
    (h : File.part? fields name known = some part) :
    ∃ rest, File.part? (o.removeFrom fields) name known = some rest ∧
      ∀ key, rest.get? key = if key ∈ removed then none else part.get? key := by
  unfold File.part? at h ⊢
  rw [Overrides.removeFrom, get?_map, hremove]
  cases hname : fields.get? name with
  | none =>
    rw [hname] at h
    obtain rfl := Option.some.inj h
    exact ⟨[], rfl, fun key => by simp [Fields.get?]⟩
  | some value =>
    rw [hname] at h
    refine ⟨removed.foldl Fields.erase part, ?_, get?_foldl_erase removed part⟩
    show File.partFields? known (removeKeys known removed value) = _
    rw [removeKeys, show File.partFields? known value = some part from h]
    rfl

/-- A key that is gone sets nothing, and the others set what they did. -/
theorem optional?_of_get? {α : Type} {part rest : Fields} {removed : List String}
    (hget : ∀ key, rest.get? key = if key ∈ removed then none else part.get? key) (key : String)
    (read : Value → Option α) {value? : Option α} (h : File.optional? part key read = some value?) :
    File.optional? rest key read = some (if key ∈ removed then none else value?) := by
  unfold File.optional? at h ⊢
  rw [hget]
  by_cases hkey : key ∈ removed
  · rw [if_pos hkey, if_pos hkey]
  · rw [if_neg hkey, if_neg hkey]
    exact h

/-- The table that is left of a file sets what the command line does not set. -/
theorem ofFields?_removeFrom (o : Overrides) (h : File.ofFields? fields = some file) :
    File.ofFields? (o.removeFrom fields) = some (o.without file) := by
  unfold File.ofFields? at h
  -- Both parts have been read, and all keys in them.
  simp only [Option.bind_eq_bind, Option.bind_eq_some_iff, Option.pure_def, Option.some.injEq] at h
  obtain ⟨sphinx, hsphinx, output, houtput, command?, hcommand, arguments?, harguments, extensions?,
    hextensions, pythonPath?, hpythonPath, keepWorkdir?, hkeepWorkdir, workDir?, hworkDir, outputDir?,
    houtputDir, format?, hformat, rfl⟩ := h
  have hsphinxRemove :
      o.removeFromPart "sphinx" = removeKeys File.sphinxKeys o.sphinxKeys := rfl
  have houtputRemove :
      o.removeFromPart "output" = removeKeys File.outputKeys o.outputKeys := rfl
  obtain ⟨sphinxRest, hsphinxRest, hsphinxGet⟩ := part?_removeFrom hsphinxRemove hsphinx
  obtain ⟨outputRest, houtputRest, houtputGet⟩ := part?_removeFrom houtputRemove houtput
  unfold File.ofFields?
  rw [hsphinxRest, houtputRest]
  simp only [Option.bind_eq_bind, Option.bind_some, Option.pure_def,
    optional?_of_get? hsphinxGet _ _ hcommand, optional?_of_get? hsphinxGet _ _ harguments,
    optional?_of_get? hsphinxGet _ _ hextensions, optional?_of_get? hsphinxGet _ _ hpythonPath,
    optional?_of_get? hsphinxGet _ _ hkeepWorkdir, optional?_of_get? hsphinxGet _ _ hworkDir,
    optional?_of_get? houtputGet _ _ houtputDir, optional?_of_get? houtputGet _ _ hformat]
  unfold Overrides.without unlessGiven Overrides.sphinxKeys Overrides.outputKeys
  cases o.command? <;> cases o.keepWorkdir? <;> cases o.outputDir? <;> cases o.format? <;> simp

/-! ## Settings of a file below those of the command line -/

/-- Settings, if they pass the check. -/
def checked (settings : Settings) : Except Error Settings := do
  settings.validate
  return settings

/-- The settings of a file with those of the command line in place of others. Both what the file sets
and what comes out is checked. -/
def File.settle (env : Environment) (path : Path) (o : Overrides) (file : File) :
    Except Error Settings := do
  let settings ← file.expandAll env >>= fun file =>
    checked (file.resolve path (path.parent?.getD ⟨"."⟩))
  checked (settings.override o)

/-- Settings are those of the file that is asked for, or else of the one that applies. -/
theorem load_eq_settle (hpath : path?.or (discover s) = some path) (hread : s.readText path = .ok text)
    (hparse : (Toml.parse text).bind File.ofFields? = some file) :
    load s env path? (some o) = file.settle env path o := by
  rw [load, loadFile_of_readText hpath hread, ofText, File.parse, hparse]
  rfl

/-- The same for a file that has another text. -/
theorem load_rewrite (hpath : path?.or (discover s) = some path) (hread : s.readText path = .ok text)
    (hparse : (Toml.parse text').bind File.ofFields? = some file) :
    load (s.rewrite path text') env path? (some o) = file.settle env path o := by
  refine load_eq_settle ?_ (Store.readText_rewrite hread text') hparse
  -- The same file is found, since only its text is another one.
  have hdiscover : discover (s.rewrite path text') = discover s := by
    unfold discover
    congr 1
    funext candidate
    exact Store.isFile_rewrite hread text' candidate
  rw [hdiscover, hpath]

/-! ## Values that are replaced -/

/-- A value of the file that the command line replaces, but that keeps settings from being loaded all
the same, with the error: it refers to a variable that is not set, or it is a blank command. -/
inductive Obstacle (env : Environment) (o : Overrides) (file : File) : Error → Prop
  | command {text name : String} (hgiven : o.command?.isSome) (hfile : file.command? = some text)
      (hexpand : expand env text = .error name) : Obstacle env o file (.unset "sphinx.command" name)
  | blank {text value : String} (hgiven : o.command?.isSome) (hfile : file.command? = some text)
      (hexpand : expand env text = .ok value) (hblank : isGiven value = false) :
      Obstacle env o file (.emptyField "sphinx.command")
  | outputDir {text name : String} (hgiven : o.outputDir?.isSome)
      (hfile : file.outputDir? = some text) (hexpand : expand env text = .error name) :
      Obstacle env o file (.unset "output.dir" name)

namespace File

theorem mapM_unlessGiven {α β : Type} {given? : Option α} {value? expanded? : Option β}
    {f : β → Except Error β} (h : value?.mapM f = .ok expanded?) :
    (unlessGiven given? value?).mapM f = .ok (unlessGiven given? expanded?) := by
  unfold unlessGiven
  split
  · rfl
  · exact h

/-- If a file can be expanded, so can what is left of it. -/
theorem expandAll_without {expanded : File} (o : Overrides) (h : file.expandAll env = .ok expanded) :
    (o.without file).expandAll env = .ok (o.without expanded) := by
  obtain ⟨command?, workDir?, pythonPath, outputDir?, hcommand, hworkDir, hpythonPath, houtputDir,
    rfl⟩ := expandAll_eq_ok.mp h
  exact expandAll_eq_ok.mpr ⟨_, _, _, _, mapM_unlessGiven hcommand, hworkDir, hpythonPath,
    mapM_unlessGiven houtputDir, rfl⟩

/-- If a file cannot be expanded, neither can what is left of it, unless a value that is replaced is
the reason. -/
theorem expandAll_error {e : Error} (o : Overrides) (h : file.expandAll env = .error e) :
    Obstacle env o file e ∨ (o.without file).expandAll env = .error e := by
  have hkept {α : Type} {given? : Option α} {value? : Option String} (hgiven : ¬ given?.isSome) :
      unlessGiven given? value? = value? := if_neg hgiven
  unfold expandAll at h ⊢
  -- Of the four values that are expanded one by one, only the first and the last may be replaced.
  rcases bind_eq_error.mp h with hcommand | ⟨command?, hcommand, h⟩
  · by_cases hgiven : o.command?.isSome
    · obtain ⟨text, name, hfile, hexpand, rfl⟩ := mapM_expandField_eq_error.mp hcommand
      exact Or.inl (.command hgiven hfile hexpand)
    · refine Or.inr (bind_eq_error.mpr (Or.inl ?_))
      rw [Overrides.without, hkept hgiven, hcommand]
  refine Or.imp_right (fun h => bind_eq_error.mpr (Or.inr ⟨_, mapM_unlessGiven hcommand, h⟩)) ?_
  rcases bind_eq_error.mp h with hworkDir | ⟨workDir?, hworkDir, h⟩
  · exact Or.inr (bind_eq_error.mpr (Or.inl hworkDir))
  refine Or.imp_right (fun h => bind_eq_error.mpr (Or.inr ⟨_, hworkDir, h⟩)) ?_
  rcases bind_eq_error.mp h with hpythonPath | ⟨pythonPath, hpythonPath, h⟩
  · exact Or.inr (bind_eq_error.mpr (Or.inl hpythonPath))
  refine Or.imp_right (fun h => bind_eq_error.mpr (Or.inr ⟨_, hpythonPath, h⟩)) ?_
  rcases bind_eq_error.mp h with houtputDir | ⟨outputDir?, houtputDir, h⟩
  · by_cases hgiven : o.outputDir?.isSome
    · obtain ⟨text, name, hfile, hexpand, rfl⟩ := mapM_expandField_eq_error.mp houtputDir
      exact Or.inl (.outputDir hgiven hfile hexpand)
    · refine Or.inr (bind_eq_error.mpr (Or.inl ?_))
      rw [Overrides.without, hkept hgiven, houtputDir]
  · cases h

end File

/-! ## What a replaced value can do -/

/-- A blank command of the file is an error even if the command line has another one. -/
theorem settle_blank {expanded : File} {command : String} (h : file.expandAll env = .ok expanded)
    (hcommand : expanded.command? = some command) (hblank : isGiven command = false) :
    file.settle env path o = .error (.emptyField "sphinx.command") := by
  have hvalidate (dir : Path) :
      (expanded.resolve path dir).validate = .error (.emptyField "sphinx.command") := by
    rw [validate, File.resolve, hcommand]
    simp [hblank]
  rw [File.settle, h]
  simp only [bind, Except.bind, checked, hvalidate]

/-- Where it is not blank, what is left of the file passes the same checks, and gives the same
settings below those of the command line. -/
theorem settle_without {expanded : File} (h : file.expandAll env = .ok expanded)
    (hcommand : o.command?.isSome → ∀ command, expanded.command? = some command →
      isGiven command = true) :
    (o.without file).settle env path o = file.settle env path o := by
  have hvalidate (dir : Path) : ((o.without expanded).resolve path dir).validate =
      (expanded.resolve path dir).validate := by
    by_cases hgiven : o.command?.isSome
    · -- Without the command of the file, it is the default that is checked at first.
      have hdefault : isGiven "sphinx-build" = true := by decide +kernel
      have hexpanded : isGiven (expanded.command?.getD "sphinx-build") = true := by
        cases hfile : expanded.command? with
        | none => exact hdefault
        | some command => exact hcommand hgiven command hfile
      simp [validate, File.resolve, Overrides.without, unlessGiven, hgiven, hdefault, hexpanded]
    · simp [validate, File.resolve, Overrides.without, unlessGiven, hgiven]
  -- What has been removed is set by the command line in any case.
  have hoverride (dir : Path) : ((o.without expanded).resolve path dir).override o =
      (expanded.resolve path dir).override o := by
    unfold override File.resolve Overrides.without unlessGiven
    cases o.command? <;> cases o.outputDir? <;> cases o.format? <;> cases o.keepWorkdir? <;> simp
  have hexpandAll := File.expandAll_without o h
  unfold File.settle checked
  rw [h, hexpandAll]
  simp only [bind, Except.bind, hvalidate]
  cases (expanded.resolve path (path.parent?.getD ⟨"."⟩)).validate with
  | error e => rfl
  | ok _ => simp only [pure, Except.pure, hoverride]

/-- Without such a value, what is left of a file gives the same settings or the same error. -/
theorem settle_of_no_obstacle (h : ∀ e, ¬ Obstacle env o file e) :
    file.settle env path o = (o.without file).settle env path o := by
  cases hexpand : file.expandAll env with
  | error e =>
    have hrest := (File.expandAll_error o hexpand).resolve_left (h e)
    rw [File.settle, File.settle, hexpand, hrest]
  | ok expanded =>
    refine (settle_without hexpand fun hgiven command hcommand => ?_).symm
    obtain ⟨command?, workDir?, pythonPath, outputDir?, hfile, -, -, -, rfl⟩ :=
      File.expandAll_eq_ok.mp hexpand
    rcases File.mapM_expandField_eq_ok.mp hfile with ⟨-, rfl⟩ | ⟨text, value, htext, hvalue, rfl⟩
    · cases hcommand
    · obtain rfl := Option.some.inj hcommand
      by_contra hblank
      exact h _ (.blank hgiven htext hvalue (Bool.eq_false_iff.mpr hblank))

/-- With one, there are no settings: the reason is such a value, or else what is left of the file
fails for the same one. -/
theorem settle_of_obstacle {e : Error} (h : Obstacle env o file e) :
    ∃ e', file.settle env path o = .error e' ∧
      (Obstacle env o file e' ∨ (o.without file).settle env path o = .error e') := by
  cases hexpand : file.expandAll env with
  | error e' =>
    refine ⟨e', ?_, (File.expandAll_error o hexpand).imp_right fun hrest => ?_⟩
    · rw [File.settle, hexpand]
      rfl
    · rw [File.settle, hrest]
      rfl
  | ok expanded =>
    obtain ⟨command?, workDir?, pythonPath, outputDir?, hcommand, -, -, houtputDir, heq⟩ :=
      File.expandAll_eq_ok.mp hexpand
    -- All variables are set, so what is left is a blank command.
    cases h with
    | command hgiven hfile hunset =>
      rw [File.mapM_expandField_eq_error.mpr ⟨_, _, hfile, hunset, rfl⟩] at hcommand
      cases hcommand
    | outputDir hgiven hfile hunset =>
      rw [File.mapM_expandField_eq_error.mpr ⟨_, _, hfile, hunset, rfl⟩] at houtputDir
      cases houtputDir
    | blank hgiven hfile hvalue hblank =>
      rw [File.mapM_expandField_eq_ok.mpr (Or.inr ⟨_, _, hfile, hvalue, rfl⟩)] at hcommand
      refine ⟨_, settle_blank hexpand ?_ hblank, Or.inl (.blank hgiven hfile hvalue hblank)⟩
      rw [← heq]
      exact (Except.ok.inj hcommand).symm

/-- **The command line in place of the file.** What the command line sets may be removed from the file
without a difference, unless one of the removed values refers to a variable that is not set or is a
blank command. Then there are no settings, either because of such a value or because of an error that
stays when they are removed. So a value that is replaced never has a part in settings. -/
theorem load_without_overridden (hpath : path?.or (discover s) = some path)
    (hread : s.readText path = .ok text) (hparse : Toml.parse text = some fields)
    (hfile : File.ofFields? fields = some file) (hrest : Toml.parse text' = some (o.removeFrom fields)) :
    ((∀ e, ¬ Obstacle env o file e) →
      load s env path? (some o) = load (s.rewrite path text') env path? (some o)) ∧
    (∀ e, Obstacle env o file e → ∃ e', load s env path? (some o) = .error e' ∧
      (Obstacle env o file e' ∨ load (s.rewrite path text') env path? (some o) = .error e')) ∧
    (∀ settings, load s env path? (some o) = .ok settings →
      load (s.rewrite path text') env path? (some o) = .ok settings) := by
  have hsettle : load s env path? (some o) = file.settle env path o :=
    load_eq_settle hpath hread (by rw [hparse, Option.bind_some, hfile])
  have hsettleRest : load (s.rewrite path text') env path? (some o) =
      (o.without file).settle env path o :=
    load_rewrite hpath hread (by rw [hrest, Option.bind_some, ofFields?_removeFrom o hfile])
  rw [hsettle, hsettleRest]
  refine ⟨settle_of_no_obstacle, fun e => settle_of_obstacle, fun settings hok => ?_⟩
  -- Where there are settings, nothing has stood in the way.
  rw [← settle_of_no_obstacle fun e h => ?_, hok]
  obtain ⟨e', herror, -⟩ := settle_of_obstacle h
  rw [hok] at herror
  cases herror

/-- A file that sets a command, a directory for working directories, and a format. -/
def threeKeys : String :=
  "[sphinx]\ncommand = 'a'\nwork_dir = 'w'\n[output]\nformat = 'json'\n"

/-- The command and the format are replaced, and the directory stays. -/
theorem load_without_overridden_format :
    load (soleFile threeKeys) [] none (some { command? := some "x", format? := some .html }) =
      .ok ⟨"x", [], [], [], false, some ⟨"/w"⟩, ⟨"/build"⟩, .html, some ⟨"/autodoc.toml"⟩⟩ ∧
    load ((soleFile threeKeys).rewrite ⟨"/autodoc.toml"⟩ "[sphinx]\nwork_dir = 'w'\n[output]\n") [] none
        (some { command? := some "x", format? := some .html }) =
      .ok ⟨"x", [], [], [], false, some ⟨"/w"⟩, ⟨"/build"⟩, .html, some ⟨"/autodoc.toml"⟩⟩ := by
  have hpath : (none : Option Path).or (discover (soleFile threeKeys)) = some ⟨"/autodoc.toml"⟩ := by
    decide +kernel
  have hread : (soleFile threeKeys).readText ⟨"/autodoc.toml"⟩ = .ok threeKeys := by
    decide +kernel
  have hparse : Toml.parse threeKeys = some
      [("sphinx", .table [("command", .string "a"), ("work_dir", .string "w")]),
        ("output", .table [("format", .string "json")])] := by
    decide +kernel
  have hfile : File.ofFields?
      [("sphinx", .table [("command", .string "a"), ("work_dir", .string "w")]),
        ("output", .table [("format", .string "json")])] =
      some { command? := some "a", workDir? := some "w", format? := some .json } := by
    decide +kernel
  have hrest : Toml.parse "[sphinx]\nwork_dir = 'w'\n[output]\n" = some
      (Overrides.removeFrom { command? := some "x", format? := some .html }
        [("sphinx", .table [("command", .string "a"), ("work_dir", .string "w")]),
          ("output", .table [("format", .string "json")])]) := by
    decide +kernel
  have hload : load (soleFile threeKeys) [] none (some { command? := some "x", format? := some .html }) =
      .ok ⟨"x", [], [], [], false, some ⟨"/w"⟩, ⟨"/build"⟩, .html, some ⟨"/autodoc.toml"⟩⟩ := by
    decide +kernel
  exact ⟨hload, (load_without_overridden hpath hread hparse hfile hrest).2.2 _ hload⟩

/-- The command of the file refers to a variable that is not set. The command line has another one,
but the settings cannot be loaded; without the one in the file they can. -/
theorem replaced_command_unset : ¬ ∀ (s : Store) (env : Environment) (path? : Option Path) (path : Path)
    (o : Overrides) (text text' : String) (fields : Fields) (file : File),
    path?.or (discover s) = some path → s.readText path = .ok text → Toml.parse text = some fields →
    File.ofFields? fields = some file → Toml.parse text' = some (o.removeFrom fields) →
    load s env path? (some o) = load (s.rewrite path text') env path? (some o) := by
  intro h
  have hsame := h (soleFile "[sphinx]\ncommand = '$\x7bSPHINX\x7d'\n") [] (some ⟨fileName⟩) ⟨fileName⟩
    { command? := some "x" } "[sphinx]\ncommand = '$\x7bSPHINX\x7d'\n" "[sphinx]\n"
    [("sphinx", .table [("command", .string "$\x7bSPHINX\x7d")])] { command? := some "$\x7bSPHINX\x7d" }
    rfl (by decide +kernel) (by decide +kernel) (by decide +kernel) (by decide +kernel)
  revert hsame
  decide +kernel

end Settings

end DocWeave
