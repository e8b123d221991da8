import DocWeave.Sphinx.Error

/-!
# Working directories

Each build has a working directory of its own:

```text
autodoc-000000/
  source/index.rst
  source/conf.py
  build/index.xml      (written by Sphinx)
  stdout.log
  stderr.log
```

- `freshName`: a name that is not in use in a directory.
- `Disk`: what the disk may refuse of a working directory.
- `Workdir.createOn`, `Workdir.prepareOn`, `Workdir.readResult`, `Workdir.remove`: its life on
  some disk.
-/

namespace DocWeave.Sphinx

/-- The name of the working directory with some number; the number has at least six digits. -/
def workdirName (n : Nat) : String :=
  let digits := Nat.toDigits 10 n
  String.ofList ("autodoc-".toList ++ List.replicate (6 - digits.length) '0' ++ digits)

/-- The first working directory name that a directory does not hold. There are more candidates than
entries, so one of them is free. -/
def freshName (s : Store) (l : Location) : String :=
  let names := s.names l
  (((List.range (names.length + 1)).map workdirName).find? (!names.contains ·)).getD ""

/-- What a disk refuses to hold, for want of space or of permission. -/
structure Disk where
  /-- The error with which it refuses an entry of a new working directory, by the names that lead there
  from the directory. No names lead to the directory itself. -/
  refusal : List String → Option SystemError := fun _ => none

/-- Creates an entry, unless the disk refuses it. -/
def Disk.allow {α : Type} (disk : Disk) (names : List String) (act : Action SystemError α) :
    Action SystemError α :=
  match disk.refusal names with
  | none => act
  | some e => throw e

/-- A working directory. -/
structure Workdir where
  /-- The directory. -/
  path : Path
deriving Repr, DecidableEq

namespace Workdir

/-- The directory that Sphinx reads. -/
def source (w : Workdir) : Path :=
  w.path.child "source"

/-- The directory that Sphinx writes. -/
def output (w : Workdir) : Path :=
  w.path.child "build"

/-- The file that Sphinx writes for the request file. -/
def resultFile (w : Workdir) : Path :=
  w.output.child "index.xml"

/-- Removes the working directory. -/
def remove (w : Workdir) (s : Store) : Store :=
  Files.removeTree w.path s

/-- Performs an action in a new working directory, which goes if the action fails. -/
def orRemove {α : Type} (w : Workdir) (act : Action Error α) : Action Error α := fun s =>
  match act s with
  | .ok a s => .ok a s
  | .error e s => .error e (w.remove s)

/-- Creates a working directory below `root?`, which is created if need be, or else in `tempDir`. -/
def createOn (disk : Disk) (tempDir : Path) (root? : Option Path) : Action Error Workdir := do
  let root := root?.getD tempDir
  if root?.isSome then Files.mapError (.system root) (Files.createAll root)
  let base := (← get).absolute root
  let l ← Files.mapError (.system root) (Files.locate base)
  let w : Workdir := ⟨base.child (freshName (← get) l)⟩
  Files.mapError (.system root) (disk.allow [] (Files.createDirectory w.path))
  w.orRemove
    (Files.mapError (.system w.source) (disk.allow ["source"] (Files.createDirectory w.source)))
  return w

/-- Writes the request file and the configuration file. -/
def prepareOn (w : Workdir) (disk : Disk) (request conf : String) : Action Error Unit := do
  let requestFile := w.source.child "index.rst"
  let confFile := w.source.child "conf.py"
  Files.mapError (.system requestFile)
    (disk.allow ["source", "index.rst"] (Files.writeText requestFile request))
  Files.mapError (.system confFile)
    (disk.allow ["source", "conf.py"] (Files.writeText confFile conf))

/-- Reads what Sphinx wrote. -/
def readResult (w : Workdir) : Action Error String := do
  if (← get).isFile w.resultFile then
    Files.mapError (.system w.resultFile) (Files.readText w.resultFile)
  else throw (.noOutput w.resultFile)

end Workdir

end DocWeave.Sphinx
