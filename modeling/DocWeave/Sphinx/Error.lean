import DocWeave.Description.Nodes
import DocWeave.Files.Store
import DocWeave.Xml.Error

/-!
# Why a build fails

- `Error`: the causes, in the order in which the steps of a build can meet them.
- `Error.message`: their wording.
-/

namespace DocWeave.Sphinx

/-- Why a build fails. -/
inductive Error where
  /-- A file or directory cannot be read or written. -/
  | system (path : Path) (error : SystemError)
  /-- A program cannot be started. -/
  | notStarted (program : String) (error : SystemError)
  /-- Sphinx ended without success; without an exit code it was ended by a signal. -/
  | failed (exitCode? : Option Int) (log : Path)
  /-- Sphinx wrote nothing. -/
  | noOutput (path : Path)
  /-- What Sphinx wrote cannot be read. -/
  | badOutput (error : Xml.Error)
  /-- What Sphinx wrote has an element without a rule. -/
  | unknownElement (error : Description.UnknownElement)
deriving Repr, DecidableEq

namespace Error

/-- How a process ended. -/
def exitText : Option Int → String
  | some code => "exit code " ++ Int.repr code
  | none => "terminated by signal"

/-- The wording of an error. -/
def message : Error → String
  | .system path error => "I/O error at " ++ path.text ++ ": " ++ error.message
  | .notStarted program error => "failed to start '" ++ program ++ "': " ++ error.message
  | .failed exitCode? log =>
    "sphinx-build failed (" ++ exitText exitCode? ++ "), see " ++ log.text
  | .noOutput path => "sphinx-build produced no output at " ++ path.text
  | .badOutput error => "invalid sphinx-build output: " ++ error.message
  | .unknownElement error => error.message

end Error

end DocWeave.Sphinx
