import DocWeave.CommandLine.Run

/-!
# The program

The files that a run may look at are read first, the run is a function on them, and what it changed is
written at the end. Other programs cannot be started from here: a run finds no Sphinx, so only documents
without places for documentation can be built.

- `loadPath`: reads what is on the way to a path.
- `saveChanges`: writes what a run changed.
-/

namespace DocWeave.Main

open CommandLine

/-- The path of a location. -/
def locationText (l : Location) : String :=
  "/" ++ "/".intercalate l

/-- What a location holds on disk. -/
def readEntry (l : Location) : IO (Option Entry) := do
  try
    return some (.file (← IO.FS.readBinFile (locationText l)))
  catch
    | .inappropriateType .. => return some .directory
    | _ => return none

/-- Reads what is at a location. -/
def loadLocation (s : Store) (l : Location) : IO Store := do
  if (s.find? l).isSome then return s
  match ← readEntry l with
  | some e => return s.put l e
  | none => return s

/-- Reads what is on the way to a path, and what it leads to. -/
def loadPath (s : Store) (p : Path) : IO Store := do
  let mut s := s
  let mut here := s.origin p
  for name in p.steps do
    here := Store.follow here name
    s ← loadLocation s here
  return s

/-- Reads what is on the way to paths. -/
def loadPaths (s : Store) (paths : List Path) : IO Store :=
  paths.foldlM loadPath s

/-- The current directory, with all that is on the way to it. -/
def loadCurrent : IO Store := do
  let path : Path := ⟨(← IO.currentDir).toString⟩
  let s ← loadPath {} path
  return { s with current := path.steps }

/-- The variables with some names. -/
def loadVariables (names : List String) : IO Environment := do
  let mut env : Environment := []
  for name in names do
    if let some value ← IO.getEnv name then
      env := env ++ [(name, value)]
  return env

/-- Writes what a run changed. Directories come before what they hold. -/
def saveChanges (before after : Store) : IO Unit := do
  let changed := after.entries.filter fun (l, e) => before.find? l ≠ some e
  for (l, e) in changed.mergeSort fun a b => a.1.length ≤ b.1.length do
    match e with
    | .directory => IO.FS.createDir (locationText l)
    | .file contents => IO.FS.writeBinFile (locationText l) contents

/-- The directory for temporary files. -/
def loadTempDir : IO Path := do
  return ⟨(← IO.getEnv "TMPDIR").getD "/tmp"⟩

/-- Reads all that a run of some command looks at; the environment that it needs, and the files. -/
def loadFor (tempDir : Path) (env : Environment) (command : Command) (s : Store) :
    IO (Environment × Store) := do
  match command with
  | .version | .help => return (env, s)
  | .request file => return (env, ← loadPath s file)
  | .build a =>
    let s ← loadPaths s (Settings.candidates s a.config?)
    let env := env ++ (← loadVariables (Settings.variableNames s a.config?))
    let s ← loadPaths s (tempDir :: a.files)
    match Settings.load s env a.config? (some a.overrides) with
    | .error _ => return (env, s)
    | .ok settings =>
      let targets := a.files.map (targetOf settings.outputDir settings.format)
      return (env, ← loadPaths s (settings.workDir?.toList ++ targets))

/-- Runs the program. -/
def runProgram (arguments : List String) : IO UInt32 := do
  let before ← loadCurrent
  let tempDir ← loadTempDir
  let env ← loadVariables [String.ofList commandVariable]
  let (env, before) ←
    match Command.parse env arguments with
    | .ok command => loadFor tempDir env command before
    | .error _ => pure (env, before)
  let host : Host := { environment := env, tempDir := tempDir, spawn := fun _ _ => throw .notFound }
  let reply := run host arguments before
  saveChanges before reply.store
  IO.print reply.stdout
  IO.eprint reply.stderr
  return UInt32.ofNat reply.exitCode

end DocWeave.Main

/-- The program. -/
def main (arguments : List String) : IO UInt32 :=
  DocWeave.Main.runProgram arguments
