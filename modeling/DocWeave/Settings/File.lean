import DocWeave.Settings.Basic
import DocWeave.Settings.Environment
import DocWeave.Toml.Reader

/-!
# The configuration file

- `File`: what a configuration file sets; everything in it is optional.
- `File.ofFields?`: the settings in a TOML table. Keys without a meaning are ignored.
- `File.expand`: the settings with the values of environment variables.
- `File.resolve`: the settings of a run, with paths below the directory of the file.
-/

namespace DocWeave.Settings

/-- What a configuration file sets. -/
structure File where
  command? : Option String := none
  arguments : List String := []
  extensions : List String := []
  pythonPath : List String := []
  keepWorkdir? : Option Bool := none
  workDir? : Option String := none
  outputDir? : Option String := none
  format? : Option Format := none
deriving Repr, DecidableEq

namespace File

open Toml (Value Fields)

/-- A text. -/
def text? : Value → Option String
  | .string value => some value
  | _ => none

/-- A truth value. -/
def bool? : Value → Option Bool
  | .boolean value => some value
  | _ => none

/-- A list of texts. -/
def texts? : Value → Option (List String)
  | .array items => items.mapM text?
  | _ => none

/-- A format by its name. A table in which the name is the only key, and is given nothing, is read
in the same way. -/
def formatOf? : Value → Option Format
  | .string name => Format.ofName? name
  | .table [(name, .table [])] => Format.ofName? name
  | .table [(name, .array [])] => Format.ofName? name
  | _ => none

/-- The keys of a part of the file. An array gives values to the known keys in their order, and a
date or time gives none. -/
def partFields? (keys : List String) : Value → Option Fields
  | .table fields => some fields
  | .array items => some (keys.zip items)
  | .dateTime _ => some []
  | _ => none

/-- The keys of the part of the file with some name; a part that is missing sets nothing. -/
def part? (fields : Fields) (name : String) (keys : List String) : Option Fields :=
  match fields.get? name with
  | none => some []
  | some value => partFields? keys value

/-- The value of a key that may be missing; it must have the right type. -/
def optional? {α : Type} (fields : Fields) (key : String) (read : Value → Option α) :
    Option (Option α) :=
  match fields.get? key with
  | none => some none
  | some value => (read value).map some

/-- The known keys about Sphinx. -/
def sphinxKeys : List String :=
  ["command", "args", "extensions", "python_path", "keep_workdir", "work_dir"]

/-- The known keys about the written documents. -/
def outputKeys : List String :=
  ["dir", "format"]

/-- The settings in a TOML table; none if a value has the wrong type. -/
def ofFields? (fields : Fields) : Option File := do
  let sphinx ← part? fields "sphinx" sphinxKeys
  let output ← part? fields "output" outputKeys
  return {
    command? := ← optional? sphinx "command" text?
    arguments := (← optional? sphinx "args" texts?).getD []
    extensions := (← optional? sphinx "extensions" texts?).getD []
    pythonPath := (← optional? sphinx "python_path" texts?).getD []
    keepWorkdir? := ← optional? sphinx "keep_workdir" bool?
    workDir? := ← optional? sphinx "work_dir" text?
    outputDir? := ← optional? output "dir" text?
    format? := ← optional? output "format" formatOf? }

/-- The settings in the text of a configuration file. -/
def parse (text : String) : Except Error File :=
  match (Toml.parse text).bind ofFields? with
  | some file => .ok file
  | none => .error .malformed

/-- A text of a field with the values of environment variables. -/
def expandField (env : Environment) (field text : String) : Except Error String :=
  match expand env text with
  | .ok text => .ok text
  | .error name => .error (.unset field name)

/-- The settings with the values of environment variables. Commands and paths may refer to them. -/
def expandAll (env : Environment) (file : File) : Except Error File := do
  let command? ← file.command?.mapM (expandField env "sphinx.command")
  let workDir? ← file.workDir?.mapM (expandField env "sphinx.work_dir")
  let pythonPath ← file.pythonPath.mapM (expandField env "sphinx.python_path")
  let outputDir? ← file.outputDir?.mapM (expandField env "output.dir")
  return { file with
    command? := command?, workDir? := workDir?, pythonPath := pythonPath, outputDir? := outputDir? }

/-- The names of environment variables to which the settings refer. -/
def variableNames (file : File) : List String :=
  (file.command?.toList ++ file.workDir?.toList ++ file.pythonPath ++ file.outputDir?.toList).flatMap
    references

/-- The settings of a run. Paths are taken below a directory. -/
def resolve (path dir : Path) (file : File) : Settings :=
  { command := file.command?.getD "sphinx-build"
    arguments := file.arguments
    extensions := file.extensions
    pythonPath := file.pythonPath.map dir.child
    keepWorkdir := file.keepWorkdir?.getD false
    workDir? := file.workDir?.map dir.child
    outputDir := (file.outputDir?.map dir.child).getD (dir.join defaultOutput)
    format := file.format?.getD .html
    file? := some path }

end File

end DocWeave.Settings
