import DocWeave.CommandLine.Arguments
import DocWeave.CommandLine.Build

/-!
# Runs

- `Reply`: what a run prints, its exit code, and the files that it leaves.
- `run`: a run with some arguments.
-/

namespace DocWeave.CommandLine

/-- What a run prints and leaves. -/
structure Reply where
  /-- Zero for success, one for failure, two for arguments that cannot be understood. -/
  exitCode : Nat := 0
  /-- The output. -/
  stdout : String := ""
  /-- The messages. -/
  stderr : String := ""
  /-- The files. -/
  store : Store

/-- Lines, each with a line feed. -/
def unlines (lines : List String) : String :=
  String.join (lines.map (· ++ "\n"))

/-- The version that is printed. -/
def versionText : String := "autodoc 0.1.0\n"

/-- A short help. -/
def helpText : String :=
  unlines
    ["Usage: autodoc <COMMAND>",
     "",
     "Commands:",
     "  build [OPTIONS] FILE...  Build Markdown documents",
     "  request FILE             Print the request file for a document",
     "",
     "Options of build:",
     "  -o, --output-dir DIR     Output directory",
     "      --format FORMAT      Output format: html or json",
     "      --sphinx-build CMD   Command that runs Sphinx",
     "      --keep-workdir       Keep working directories",
     "  -c, --config FILE        Configuration file",
     "  -v, --verbose            Verbose output"]

/-- The reply to a failure of the whole command. -/
def failed (message : String) (s : Store) : Reply :=
  { exitCode := 1, stderr := unlines ["Error: " ++ message], store := s }

/-- Prints the request file for a document. -/
def replyRequest (file : Path) (s : Store) : Reply :=
  match s.readText file with
  | .error e => failed (DocumentError.message (.file file e)) s
  | .ok text =>
    let (d, warnings) := Page.parse text
    let messages := warnings.map fun w => file.text ++ ": " ++ w.message
    if d.places.isEmpty then
      { stderr := unlines (messages ++ ["No automodule directives found"]), store := s }
    else
      { stdout := (Sphinx.RequestFile.ofDocument d).text, stderr := unlines messages, store := s }

/-- What is said if documents failed. -/
def failureMessage (files : List FileResult) : String :=
  "Error: " ++ Nat.repr (files.countP (·.isFailure)) ++ " of " ++ Nat.repr files.length ++
    " documents failed"

/-- Prints what came of each document. The run fails if one of them has failed. -/
def replyFiles (outputDir : Path) (files : List FileResult) (s : Store) : Reply :=
  let lines := ("Output: " ++ outputDir.text) :: files.flatMap (·.lines)
  if files.any (·.isFailure) then
    { exitCode := 1, stderr := unlines (lines ++ [failureMessage files]), store := s }
  else { stderr := unlines lines, store := s }

/-- Builds documents and prints what came of each. -/
def replyBuild (h : Host) (a : BuildArguments) (s : Store) : Reply :=
  match build h a.files a.config? a.overrides s with
  | .error e s => failed e.message s
  | .ok result s => replyFiles result.outputDir result.files s

/-- A run with some arguments. -/
def run (h : Host) (arguments : List String) (s : Store) : Reply :=
  match Command.parse h.environment arguments with
  | .error e => { exitCode := 2, stderr := unlines ["error: " ++ e.message], store := s }
  | .ok .version => { stdout := versionText, store := s }
  | .ok .help => { stdout := helpText, store := s }
  | .ok (.request file) => replyRequest file s
  | .ok (.build a) => replyBuild h a s

end DocWeave.CommandLine
