import DocWeave.Description.ModuleIndex
import DocWeave.Sphinx.Conf
import DocWeave.Sphinx.RequestFile
import DocWeave.Sphinx.Run
import DocWeave.Sphinx.Workdir
import DocWeave.Xml.Reader

/-!
# Builds

A build runs Sphinx once for all places of a document and fills them.

- `requestedModules`: the modules that a document asks for.
- `Findings.ofOutput`: what an output of Sphinx says about modules.
- `fillDocument`: gives every place what was found about its module.
- `Builder.build`: the whole build. It changes the document only if every step succeeds.
-/

namespace DocWeave.Sphinx

open Page

/-- The modules that a document asks for, in ascending order and each once. -/
def requestedModules (d : Document) : List String :=
  (d.places.foldl (fun (t : Table Unit) place => t.put place.request.moduleName ()) []).names

/-- What was found about modules. -/
structure Findings where
  /-- The modules that have a description, with the nodes of their descriptions. -/
  found : List (String × List Node) := []
  /-- The modules that have none. -/
  missing : List String := []
deriving Repr

namespace Findings

/-- The nodes of a module that was found. -/
def get? (t : Findings) (name : String) : Option (List Node) :=
  t.found.lookup name

/-- Looks up modules among the descriptions, and makes nodes of what is found. -/
def ofIndex (index : Description.ModuleIndex) :
    List String → Except Description.UnknownElement Findings
  | [] => .ok {}
  | name :: rest =>
    match index.get? name with
    | none => do
      let t ← ofIndex index rest
      return { t with missing := name :: t.missing }
    | some bucket => do
      let nodes ← Description.nodesOf bucket
      let t ← ofIndex index rest
      return { t with found := (name, nodes) :: t.found }

/-- What an output of Sphinx says about modules, and how many of all descriptions name no module. -/
def ofOutput (names : List String) (xml : String) : Except Error (Findings × Nat) :=
  match Xml.parse xml with
  | .error e => .error (.badOutput e)
  | .ok root =>
    let index := Description.ModuleIndex.ofList (Description.descriptions root)
    match ofIndex index names with
    | .error e => .error (.unknownElement e)
    | .ok t => .ok (t, index.dropped)

end Findings

/-- Gives a place the nodes of its module. A place whose module was not found is left alone. -/
def fillPlace (t : Findings) (place : Pending) : Pending :=
  match t.get? place.request.moduleName with
  | some nodes => { place with children := nodes }
  | none => place

/-- Gives every place of a document the nodes of its module. -/
def fillDocument (t : Findings) (d : Document) : Document :=
  d.mapPlaces (fillPlace t)

/-- What a build did. -/
structure Report where
  /-- The number of distinct requests. -/
  requests : Nat := 0
  /-- The number of places that were filled. -/
  filled : Nat := 0
  /-- The modules that were not found, in ascending order. -/
  missing : List String := []
  /-- The number of descriptions that name no module. -/
  dropped : Nat := 0
  /-- The working directory, if it was kept. -/
  workdir? : Option Path := none
deriving Repr, DecidableEq

namespace Report

/-- What a user should know about a build that succeeded. -/
def warnings (r : Report) : List String :=
  r.missing.map fun name => "module '" ++ name ++ "' not found in Sphinx output"

end Report

/-- How documents are built. -/
structure Builder where
  /-- How Sphinx is run. -/
  runner : Runner
  /-- How Sphinx is configured. -/
  conf : Conf := {}
  /-- The directory for temporary files. -/
  tempDir : Path
  /-- The disk with the working directories. -/
  disk : Disk := {}
  /-- Where working directories are created instead. -/
  workRoot? : Option Path := none
  /-- Whether working directories stay after a success. -/
  keepWorkdir : Bool := false

/-- What a build leaves: a report or an error, the document, and the files. -/
structure Built where
  /-- The report, or why the build failed. -/
  result : Except Error Report
  /-- The document. -/
  document : Document
  /-- The files. -/
  store : Store

namespace Builder

/-- Writes the sources of a run and runs Sphinx. -/
def run (b : Builder) (w : Workdir) (file : RequestFile) : Action Error Outcome := do
  w.prepareOn b.disk file.text b.conf.text
  b.runner ⟨w.source, w.output, w.path⟩

/-- Reads what a successful run wrote. -/
def collect (w : Workdir) (names : List String) : Action Error (Findings × Nat) := do
  let xml ← w.readResult
  match Findings.ofOutput names xml with
  | .ok found => return found
  | .error e => throw e

/-- Builds a document in a working directory. The directory stays if Sphinx failed, so that its logs
can be read, and after a success if that is wanted. -/
def buildIn (b : Builder) (w : Workdir) (d : Document) (s : Store) : Built :=
  let file := RequestFile.ofDocument d
  match b.run w file s with
  | .error e s => ⟨.error e, d, w.remove s⟩
  | .ok outcome s =>
    if outcome.isSuccess then
      match collect w (requestedModules d) s with
      | .error e s => ⟨.error e, d, w.remove s⟩
      | .ok (t, dropped) s =>
        let report : Report :=
          { requests := file.size
            filled := d.places.countP fun place => (t.get? place.request.moduleName).isSome
            missing := t.missing
            dropped := dropped
            workdir? := if b.keepWorkdir then some w.path else none }
        ⟨.ok report, fillDocument t d, if b.keepWorkdir then s else w.remove s⟩
    else ⟨.error (.failed outcome.exitCode? outcome.stderr), d, s⟩

/-- Builds a document. Without places there is nothing to do, and Sphinx is not run. -/
def build (b : Builder) (d : Document) (s : Store) : Built :=
  if d.places.isEmpty then ⟨.ok {}, d, s⟩
  else
    match Workdir.createOn b.disk b.tempDir b.workRoot? s with
    | .error e s => ⟨.error e, d, s⟩
    | .ok w s => b.buildIn w d s

end Builder

end DocWeave.Sphinx
