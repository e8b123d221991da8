import DocWeave.CommandLine.Targets
import DocWeave.Page.Html
import DocWeave.Page.Json
import DocWeave.Settings.Load
import DocWeave.Sphinx.Build

/-!
# Building documents

Each document is read, built and written on its own; the steps touch only its source, its working
directory and its target.

- `readSource`, `buildSource`, `writeTarget`: the steps.
- `buildOne`: the steps for one document; `buildEach`: all documents.
- `build`: the command.
-/

namespace DocWeave.CommandLine

/-- Why one document fails. -/
inductive DocumentError where
  /-- The source cannot be read, or the target cannot be written. -/
  | file (path : Path) (error : SystemError)
  /-- The build fails. -/
  | build (error : Sphinx.Error)
deriving Repr, DecidableEq

/-- The wording of an error. -/
def DocumentError.message : DocumentError → String
  | .file path error => path.text ++ ": " ++ error.message
  | .build error => error.message

/-- The text of a document in a format. -/
def render (format : Format) (d : Page.Document) : String :=
  match format with
  | .html => d.html
  | .json => d.jsonText

/-- Reads a source. -/
def readSource (source : Path) : Action DocumentError String :=
  Files.mapError (.file source) (Files.readText source)

/-- Builds the document of a source; its text in a format, and the warnings. -/
def buildSource (b : Sphinx.Builder) (format : Format) (text : String) :
    Action DocumentError (String × List String) := fun s =>
  let (d, warnings) := Page.parse text
  let built := b.build d s
  match built.result with
  | .error e => .error (.build e) built.store
  | .ok report =>
    .ok (render format built.document, warnings.map (·.message) ++ report.warnings) built.store

/-- Writes a target. -/
def writeTarget (target : Path) (text : String) : Action DocumentError Unit :=
  Files.mapError (.file target) (Files.writeText target text)

/-- Builds one document and writes it; the warnings. -/
def buildOne (b : Sphinx.Builder) (format : Format) (source target : Path) :
    Action DocumentError (List String) := do
  let text ← readSource source
  let (output, warnings) ← buildSource b format text
  writeTarget target output
  return warnings

/-- What came of one document. -/
structure FileResult where
  source : Path
  target : Path
  /-- The warnings, or why it failed. -/
  result : Except DocumentError (List String)

/-- The lines that are printed about a document. -/
def FileResult.lines (r : FileResult) : List String :=
  match r.result with
  | .error e => [r.source.text ++ ": " ++ e.message]
  | .ok warnings =>
    warnings.map (fun warning => r.source.text ++ ": " ++ warning) ++
      [r.source.text ++ " -> " ++ r.target.text]

/-- Whether a document failed. -/
def FileResult.isFailure (r : FileResult) : Bool :=
  match r.result with
  | .error _ => true
  | .ok _ => false

/-- Builds documents, each with its source and its target. -/
def buildEach (b : Sphinx.Builder) (format : Format) :
    List (Path × Path) → Store → List FileResult × Store
  | [], s => ([], s)
  | (source, target) :: rest, s =>
    let (result, s) :=
      match buildOne b format source target s with
      | .ok warnings s => (Except.ok warnings, s)
      | .error e s => (Except.error e, s)
    let (results, s) := buildEach b format rest s
    (⟨source, target, result⟩ :: results, s)

/-- Why the whole command fails before any document is built. -/
inductive CommandError where
  | settings (error : Settings.Error)
  | conflict (targets : TargetConflict)
  | outputDir (path : Path) (error : SystemError)
deriving Repr, DecidableEq

/-- The wording of an error. -/
def CommandError.message : CommandError → String
  | .settings error => error.message
  | .conflict c => c.message
  | .outputDir path error => path.text ++ ": " ++ error.message

/-- What the command needs besides files. -/
structure Host where
  /-- The environment. -/
  environment : Environment := []
  /-- The directory for temporary files. -/
  tempDir : Path
  /-- How programs are run. -/
  spawn : Sphinx.Spawn

/-- The builder that settings ask for. -/
def builder (h : Host) (settings : Settings) : Sphinx.Builder :=
  { runner := (Sphinx.Command.ofText settings.command settings.arguments).runner h.spawn
    conf := ⟨settings.extensions, settings.pythonPath.map (·.text)⟩
    tempDir := h.tempDir
    workRoot? := settings.workDir?
    keepWorkdir := settings.keepWorkdir }

/-- What came of the command: the output directory, and the documents. -/
structure BuildResult where
  outputDir : Path
  files : List FileResult

/-- Builds documents. Nothing is created before the settings are loaded and all targets are known.
-/
def build (h : Host) (sources : List Path) (config? : Option Path) (overrides : Settings.Overrides) :
    Action CommandError BuildResult := fun s =>
  match Settings.load s h.environment config? (some overrides) with
  | .error e => .error (.settings e) s
  | .ok settings =>
    match targetsOf settings.outputDir settings.format sources with
    | .error e => .error (.conflict e) s
    | .ok targets =>
      match Files.createAll settings.outputDir s with
      | .error e s => .error (.outputDir settings.outputDir e) s
      | .ok () s =>
        let (files, s) := buildEach (builder h settings) settings.format (sources.zip targets) s
        .ok ⟨settings.outputDir, files⟩ s

end DocWeave.CommandLine
