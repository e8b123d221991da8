import DocWeave.Sphinx.Error
import DocWeave.Text.Parts

/-!
# Running Sphinx

A runner is given the directories of one run and says how Sphinx ended. What Sphinx writes, the runner
puts into the store.

- `Runner`: all that a build needs to know about a way to run Sphinx.
- `Spawn`: how the system starts a program.
- `Command`: a command line; `Command.runner` starts it as a process and keeps what it prints.
-/

namespace DocWeave.Sphinx

/-- The directories of one run. -/
structure Run where
  /-- The directory with the request file and the configuration file. -/
  source : Path
  /-- The directory that Sphinx writes. -/
  output : Path
  /-- The directory for what Sphinx prints. -/
  logs : Path
deriving Repr, DecidableEq

/-- How a run ended. -/
structure Outcome where
  /-- The exit code; a process that was ended by a signal has none. -/
  exitCode? : Option Int
  /-- The file with what Sphinx printed. -/
  stdout : Path
  /-- The file with the errors that Sphinx printed. -/
  stderr : Path
deriving Repr, DecidableEq

namespace Outcome

/-- Whether Sphinx ended with success. -/
def isSuccess (o : Outcome) : Bool :=
  o.exitCode? = some 0

end Outcome

/-- A way to run Sphinx. -/
abbrev Runner := Run → Action Error Outcome

/-- What is left of a process: its exit code and what it printed. -/
structure Exit where
  /-- The exit code; a process that was ended by a signal has none. -/
  exitCode? : Option Int := some 0
  /-- What it printed. -/
  stdout : ByteArray := .empty
  /-- The errors that it printed. -/
  stderr : ByteArray := .empty

/-- How the system runs a program with arguments. -/
abbrev Spawn := String → List String → Action SystemError Exit

/-- A command line. -/
structure Command where
  /-- The program; empty if the command line has no word. -/
  program : String
  /-- The arguments that come with the program. -/
  arguments : List String
  /-- Further arguments, which follow the choice of the builder. -/
  extra : List String := []
deriving Repr, DecidableEq

namespace Command

/-- A command line, split into words at white space. There is no quoting. -/
def ofText (text : String) (extra : List String) : Command :=
  match (Text.words text.toList).map String.ofList with
  | [] => ⟨"", [], extra⟩
  | program :: arguments => ⟨program, arguments, extra⟩

/-- All arguments of a run. -/
def allArguments (c : Command) (i : Run) : List String :=
  c.arguments ++ ["-b", "xml"] ++ c.extra ++ [i.source.text, i.output.text]

/-- Puts what a process has printed into its log, which was open all the while. A log that the process
has removed takes it along. -/
def intoLog (log : Path) (printed : ByteArray) (s : Store) : Store :=
  match s.locate log with
  | .ok l => if s.isFile log then s.put l (.file printed) else s
  | .error _ => s

/-- Runs the command as a process. Both logs are there before it starts. -/
def runner (spawn : Spawn) (c : Command) : Runner := fun i => do
  let stdout := i.logs.child "stdout.log"
  let stderr := i.logs.child "stderr.log"
  Files.mapError (.system stdout) (Files.writeText stdout "")
  Files.mapError (.system stderr) (Files.writeText stderr "")
  let exit ← Files.mapError (.notStarted c.program) (spawn c.program (c.allArguments i))
  modify (intoLog stdout exit.stdout)
  modify (intoLog stderr exit.stderr)
  return ⟨exit.exitCode?, stdout, stderr⟩

end Command

end DocWeave.Sphinx
