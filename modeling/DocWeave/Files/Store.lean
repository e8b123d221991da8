import DocWeave.Files.Path

/-!
# Files and directories

A store says which locations hold a directory or a file, and which directory is the current one. Actions
on a store either return a value or fail; both leave a store behind.

- `Store.find?`: what a location holds.
- `Store.locate`: the location to which a path leads.
- `Files.readText`, `Files.write`, `Files.createDirectory`, `Files.createAll`, `Files.removeTree`:
  actions.
-/

namespace DocWeave

/-- Why the system refuses an action on a path. -/
inductive SystemError where
  | notFound
  | alreadyExists
  | notDirectory
  | isDirectory
  | denied
  | noSpace
  | notText
deriving Repr, DecidableEq

namespace SystemError

/-- The wording of an error. -/
def message : SystemError → String
  | .notFound => "No such file or directory (os error 2)"
  | .alreadyExists => "File exists (os error 17)"
  | .notDirectory => "Not a directory (os error 20)"
  | .isDirectory => "Is a directory (os error 21)"
  | .denied => "Permission denied (os error 13)"
  | .noSpace => "No space left on device (os error 28)"
  | .notText => "stream did not contain valid UTF-8"

end SystemError

/-- The names that lead from the root to a place. -/
abbrev Location := List String

/-- What a location holds. -/
inductive Entry where
  | directory
  | file (contents : ByteArray)

instance : DecidableEq Entry
  | .directory, .directory => isTrue rfl
  | .directory, .file _ => isFalse nofun
  | .file _, .directory => isFalse nofun
  | .file a, .file b =>
    if h : a.data = b.data then isTrue (congrArg Entry.file (ByteArray.ext h))
    else isFalse fun e => h (congrArg ByteArray.data (Entry.file.inj e))

/-- The entries by location, and the current directory. The root is a directory without an entry. -/
structure Store where
  /-- What the locations hold. -/
  entries : List (Location × Entry) := []
  /-- The current directory. -/
  current : Location := []

namespace Store

/-- What a location holds. -/
def find? (s : Store) (l : Location) : Option Entry :=
  if l = [] then some .directory else s.entries.lookup l

/-- Puts an entry at a location, in place of what was there. -/
def put (s : Store) (l : Location) (e : Entry) : Store :=
  { s with entries := (l, e) :: s.entries.filter (·.1 ≠ l) }

/-- Removes a location and all below it. -/
def removeTree (s : Store) (l : Location) : Store :=
  { s with entries := s.entries.filter (!l.isPrefixOf ·.1) }

/-- The names in a directory. -/
def names (s : Store) (l : Location) : List String :=
  s.entries.filterMap fun (at', _) => if at'.dropLast = l then at'.getLast? else none

/-- The entries below a location, with the names that lead from it to them. -/
def below (s : Store) (l : Location) : List (Location × Entry) :=
  s.entries.filterMap fun (at', e) =>
    if l.isPrefixOf at' && at' ≠ l then some (at'.drop l.length, e) else none

/-- Where a name leads from a directory. -/
def follow (here : Location) (name : String) : Location :=
  if name = "." then here
  else if name = ".." then here.dropLast
  else here ++ [name]

/-- Follows names; each must be looked up in a directory. -/
def walk (s : Store) (here : Location) : List String → Except SystemError Location
  | [] => .ok here
  | name :: rest =>
    match s.find? here with
    | some .directory => s.walk (follow here name) rest
    | some (.file _) => .error .notDirectory
    | none => .error .notFound

/-- Where the names of a path start. -/
def origin (s : Store) (p : Path) : Location :=
  if p.isAbsolute then [] else s.current

/-- The location to which a path leads; it may hold nothing. The empty path leads nowhere. -/
def locate (s : Store) (p : Path) : Except SystemError Location :=
  if p.text = "" then .error .notFound else s.walk (s.origin p) p.steps

/-- What is found at a path. -/
def entry? (s : Store) (p : Path) : Option Entry :=
  match s.locate p with
  | .ok l => s.find? l
  | .error _ => none

/-- Whether there is something at a path. -/
def pathExists (s : Store) (p : Path) : Bool :=
  (s.entry? p).isSome

/-- Whether there is a file at a path. -/
def isFile (s : Store) (p : Path) : Bool :=
  match s.entry? p with
  | some (.file _) => true
  | _ => false

/-- Whether there is a directory at a path. -/
def isDirectory (s : Store) (p : Path) : Bool :=
  s.entry? p = some .directory

/-- The text of a file. -/
def readText (s : Store) (p : Path) : Except SystemError String :=
  match s.locate p with
  | .error e => .error e
  | .ok l =>
    match s.find? l with
    | none => .error .notFound
    | some .directory => .error .isDirectory
    | some (.file contents) =>
      match String.fromUTF8? contents with
      | some text => .ok text
      | none => .error .notText

/-- The current directory as a path. -/
def currentPath (s : Store) : Path :=
  ⟨"/" ++ "/".intercalate s.current⟩

/-- A path from the root: a relative one is put below the current directory. -/
def absolute (s : Store) (p : Path) : Path :=
  s.currentPath.join p

end Store

/-- An action on a store that may fail with an error of type `ε`. -/
abbrev Action (ε α : Type) := EStateM ε Store α

namespace Files

/-- Changes the error of an action. -/
def mapError {ε ε' α : Type} (f : ε → ε') (act : Action ε α) : Action ε' α := fun s =>
  match act s with
  | .ok a s => .ok a s
  | .error e s => .error (f e) s

/-- The location of a path, for an action. -/
def locate (p : Path) : Action SystemError Location := fun s =>
  match s.locate p with
  | .ok l => .ok l s
  | .error e => .error e s

/-- The text of a file, for an action. -/
def readText (p : Path) : Action SystemError String := fun s =>
  match s.readText p with
  | .ok text => .ok text s
  | .error e => .error e s

/-- Writes a file, in place of one that is there. -/
def write (p : Path) (contents : ByteArray) : Action SystemError Unit := do
  let l ← locate p
  if (← get).find? l = some .directory then throw .isDirectory
  modify (·.put l (.file contents))

/-- Writes a text to a file. -/
def writeText (p : Path) (text : String) : Action SystemError Unit :=
  write p text.toUTF8

/-- The location at which a directory is to be created. -/
def locateNew (p : Path) : Action SystemError Location := fun s =>
  if p.text = "" then .error .notFound s
  else
    match s.walk (s.origin p) p.stepsToCreate with
    | .ok l => .ok l s
    | .error e => .error e s

/-- Creates one directory. -/
def createDirectory (p : Path) : Action SystemError Unit := do
  let l ← locateNew p
  match (← get).find? l with
  | some _ => throw .alreadyExists
  | none => modify (·.put l .directory)

/-- Creates the first of some directories, of which each is the parent of the one before it. Where a
parent is missing it is created first. -/
def createChain : List Path → Action SystemError Unit
  | [] => throw .notFound
  | p :: parents => fun s =>
    if p.text = "" then .ok () s
    else
      match createDirectory p s with
      | .ok () s => .ok () s
      | .error .notFound s =>
        match createChain parents s with
        | .error e s => .error e s
        | .ok () s => orDirectory p (createDirectory p s)
      | result => orDirectory p result
where
  /-- A failure does not count if the path leads to a directory all the same. -/
  orDirectory (p : Path) : EStateM.Result SystemError Store Unit → EStateM.Result SystemError Store Unit
    | .ok () s => .ok () s
    | .error e s => if s.isDirectory p then .ok () s else .error e s

/-- Creates a directory and those on the way to it. -/
def createAll (p : Path) : Action SystemError Unit :=
  createChain p.ancestors

/-- Removes a directory with all it holds; a path that leads nowhere is left alone. -/
def removeTree (p : Path) (s : Store) : Store :=
  match s.locate p with
  | .ok l => s.removeTree l
  | .error _ => s

end Files

end DocWeave
