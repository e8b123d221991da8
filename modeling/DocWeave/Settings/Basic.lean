import DocWeave.Files.Store
import DocWeave.Text.Parts

/-!
# Settings

- `Format`: the formats in which documents are written.
- `Settings`: all that can be set; `Settings.validate`: what must not be empty.
- `Settings.Error`: why settings cannot be loaded.
-/

namespace DocWeave

/-- The formats in which documents are written. -/
inductive Format where
  | html
  | json
deriving Repr, DecidableEq

namespace Format

/-- The name of a format, which is also the extension of its files. -/
def name : Format → String
  | .html => "html"
  | .json => "json"

/-- The format with some name. -/
def ofName? (name : String) : Option Format :=
  if name = "html" then some .html
  else if name = "json" then some .json
  else none

/-- What is said about a name that no format has. -/
def unknownMessage (name : String) : String :=
  "unknown output format '" ++ name ++ "' (expected html or json)"

end Format

/-- The settings of a run. -/
structure Settings where
  /-- The command that runs Sphinx. -/
  command : String := "sphinx-build"
  /-- Further arguments for Sphinx. -/
  arguments : List String := []
  /-- Extensions for Sphinx. -/
  extensions : List String := []
  /-- Directories in which Python looks for modules. -/
  pythonPath : List Path := []
  /-- Whether working directories stay after a success. -/
  keepWorkdir : Bool := false
  /-- Where working directories are created. -/
  workDir? : Option Path := none
  /-- The directory for the written documents. -/
  outputDir : Path
  /-- The format of the written documents. -/
  format : Format := .html
  /-- The file that the settings come from. -/
  file? : Option Path := none
deriving Repr, DecidableEq

namespace Settings

/-- The name of the directory for the written documents, unless something else is set. -/
def defaultOutput : Path := ⟨"build"⟩

/-- The settings when nothing is set. -/
def default (base : Path) : Settings :=
  { outputDir := base.join defaultOutput }

/-- Why settings cannot be loaded. -/
inductive Error where
  /-- The file that was asked for is not there. -/
  | notFound (path : Path)
  /-- The file cannot be read. -/
  | io (error : SystemError)
  /-- The file is no TOML document, or a value in it has the wrong type. -/
  | malformed
  /-- Something that is needed is empty. -/
  | emptyField (field : String)
  /-- A setting refers to an environment variable that is not set. -/
  | unset (field name : String)
deriving Repr, DecidableEq

/-- The wording of an error. -/
def Error.message : Error → String
  | .notFound path => "Configuration file not found: " ++ path.text
  | .io error => "I/O error: " ++ error.message
  | .malformed => "TOML parse error: malformed document"
  | .emptyField field => "Configuration error: " ++ field ++ " cannot be empty"
  | .unset field name =>
    "Environment variable error in " ++ field ++ ": $\x7b" ++ name ++ "\x7d not set"

/-- Whether a text has anything but blanks. -/
def isGiven (text : String) : Bool :=
  !Text.isBlankText text.toList

/-- Checks that the command and the names of extensions are not empty. -/
def validate (s : Settings) : Except Error Unit :=
  if !isGiven s.command then .error (.emptyField "sphinx.command")
  else if !s.extensions.all isGiven then .error (.emptyField "sphinx.extensions entry")
  else .ok ()

end Settings

end DocWeave
