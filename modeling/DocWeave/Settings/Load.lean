import DocWeave.Settings.File

/-!
# Loading settings

- `ofText`: the settings that the text of a configuration file gives.
- `discover`: the configuration file that applies in the current directory.
- `Overrides`: what the command line sets; it wins over the configuration file.
- `load`: the settings of a run.
-/

namespace DocWeave.Settings

/-- The name of configuration files. -/
def fileName : String := "autodoc.toml"

/-- The settings that the text of a configuration file gives. Paths are below the directory of the
file. -/
def ofText (env : Environment) (path : Path) (text : String) : Except Error Settings := do
  let file ← File.parse text
  let file ← file.expandAll env
  let settings := file.resolve path (path.parent?.getD ⟨"."⟩)
  settings.validate
  return settings

/-- The settings that a configuration file gives. -/
def ofFile (s : Store) (env : Environment) (path : Path) : Except Error Settings :=
  match s.readText path with
  | .error e => .error (.io e)
  | .ok text => ofText env path text

/-- The configuration files that may apply in the current directory, the nearest first. -/
def candidates (s : Store) (path? : Option Path) : List Path :=
  match path? with
  | some path => [path]
  | none => s.currentPath.ancestors.map (·.child fileName)

/-- The configuration file in the current directory, or in the nearest directory above it that has
one. -/
def discover (s : Store) : Option Path :=
  (candidates s none).find? s.isFile

/-- What the command line sets. -/
structure Overrides where
  command? : Option String := none
  outputDir? : Option Path := none
  format? : Option Format := none
  keepWorkdir? : Option Bool := none
deriving Repr, DecidableEq

/-- The settings with those of the command line in place of others. -/
def override (settings : Settings) (o : Overrides) : Settings :=
  { settings with
    command := o.command?.getD settings.command
    outputDir := o.outputDir?.getD settings.outputDir
    format := o.format?.getD settings.format
    keepWorkdir := o.keepWorkdir?.getD settings.keepWorkdir }

/-- The settings without those of the command line: of the file that is asked for, else of the one
that applies in the current directory, else the default. -/
def loadFile (s : Store) (env : Environment) (path? : Option Path) : Except Error Settings :=
  match path? with
  | some path => if s.pathExists path then ofFile s env path else .error (.notFound path)
  | none =>
    match discover s with
    | some path => ofFile s env path
    | none => .ok (default s.currentPath)

/-- The names of environment variables that the configuration file refers to. -/
def variableNames (s : Store) (path? : Option Path) : List String :=
  match (candidates s path?).find? s.isFile with
  | none => []
  | some path =>
    match (s.readText path).toOption.map File.parse with
    | some (.ok file) => file.variableNames
    | _ => []

/-- The settings of a run. -/
def load (s : Store) (env : Environment) (path? : Option Path) (overrides? : Option Overrides) :
    Except Error Settings := do
  let settings ← loadFile s env path?
  match overrides? with
  | none => return settings
  | some o =>
    let settings := settings.override o
    settings.validate
    return settings

end DocWeave.Settings
