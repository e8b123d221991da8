import DocWeave.Settings.Load

/-!
# Arguments

There are two commands. `build` takes options and files in any order, `request` takes one file. After
`--` all arguments are files.

- `Command`: what the user asks for.
- `UsageError`: why arguments cannot be understood.
- `Command.parse`: reads the arguments.
-/

namespace DocWeave.CommandLine

/-- Why arguments cannot be understood. -/
inductive UsageError where
  | missingCommand
  | unknownCommand (name : String)
  | unknownOption (text : String)
  | repeatedOption (text : String)
  | missingValue (text : String)
  | superfluousValue (text : String)
  | invalidValue (text : String) (value : String)
  | missingFile
  | superfluousFile (text : String)
  | emptyFile
deriving Repr, DecidableEq

/-- The wording of an error. -/
def UsageError.message : UsageError → String
  | .missingCommand => "a command is required: build or request"
  | .unknownCommand name => "unknown command '" ++ name ++ "'"
  | .unknownOption text => "unknown option '" ++ text ++ "'"
  | .repeatedOption text => "option '" ++ text ++ "' is given twice"
  | .missingValue text => "option '" ++ text ++ "' needs a value"
  | .superfluousValue text => "option '" ++ text ++ "' takes no value"
  | .invalidValue text value => "option '" ++ text ++ "' cannot be '" ++ value ++ "'"
  | .missingFile => "a file is required"
  | .superfluousFile text => "there is no place for '" ++ text ++ "'"
  | .emptyFile => "the name of a file is empty"

/-- The options of `build`. -/
inductive Flag where
  | outputDir
  | format
  | sphinxBuild
  | keepWorkdir
  | config
  | verbose
  | help
deriving Repr, DecidableEq

namespace Flag

/-- The long name of an option. -/
def long : Flag → String
  | .outputDir => "output-dir"
  | .format => "format"
  | .sphinxBuild => "sphinx-build"
  | .keepWorkdir => "keep-workdir"
  | .config => "config"
  | .verbose => "verbose"
  | .help => "help"

/-- The short name of an option. -/
def short? : Flag → Option Char
  | .outputDir => some 'o'
  | .config => some 'c'
  | .verbose => some 'v'
  | .help => some 'h'
  | .format | .sphinxBuild | .keepWorkdir => none

/-- Whether an option has a value. -/
def hasValue : Flag → Bool
  | .outputDir | .format | .sphinxBuild | .config => true
  | .keepWorkdir | .verbose | .help => false

/-- All options. -/
def all : List Flag :=
  [.outputDir, .format, .sphinxBuild, .keepWorkdir, .config, .verbose, .help]

/-- The option with some long name. -/
def ofLong? (name : String) : Option Flag :=
  all.find? (·.long = name)

/-- The option with some short name. -/
def ofShort? (name : Char) : Option Flag :=
  all.find? (·.short? = some name)

end Flag

/-- What `build` is asked for. -/
structure BuildArguments where
  /-- The files, in the order given. -/
  files : List Path := []
  /-- What is set for this run. -/
  overrides : Settings.Overrides := {}
  /-- The configuration file. -/
  config? : Option Path := none
deriving Repr, DecidableEq

/-- What the user asks for. -/
inductive Command where
  | version
  | help
  | request (file : Path)
  | build (arguments : BuildArguments)
deriving Repr, DecidableEq

/-- An argument is read as one of these. -/
inductive Argument where
  /-- The name of a file. -/
  | file (text : String)
  /-- An option with its value. -/
  | option (flag : Flag) (value? : Option String)
deriving Repr, DecidableEq

/-- Whether an argument can be the value of the option before it. -/
def isValue (text : String) : Bool :=
  text = "-" || text.toList.head? ≠ some '-'

/-- Splits a text at its first equals sign. -/
def splitEquals (s : List Char) : List Char × Option (List Char) :=
  let name := s.takeWhile (· ≠ '=')
  (name, (s.drop name.length).tail?)

/-- Reads short options that are written together. The first one with a value takes the rest of the
text as its value, without an equals sign at its start. The last option is returned apart if its
value is still to come. -/
def readCluster (known : Flag → Bool) :
    List Char → Except UsageError (List Argument × Option Flag)
  | [] => .ok ([], none)
  | c :: rest =>
    match (Flag.ofShort? c).filter known with
    | none => .error (.unknownOption (String.ofList ['-', c]))
    | some flag =>
      if flag.hasValue then
        match rest with
        | [] => .ok ([], some flag)
        | '=' :: value => .ok ([.option flag (some (String.ofList value))], none)
        | value => .ok ([.option flag (some (String.ofList value))], none)
      else do
        let (more, pending?) ← readCluster known rest
        return (.option flag none :: more, pending?)

/-- Reads an argument that starts with two hyphens. The option is returned apart if its value is
still to come. -/
def readLong (known : Flag → Bool) (s : List Char) :
    Except UsageError (List Argument × Option Flag) :=
  let (name, value?) := splitEquals s
  let text := String.ofList name
  match (Flag.ofLong? text).filter known, value? with
  | none, _ => .error (.unknownOption ("--" ++ text))
  | some flag, none => if flag.hasValue then .ok ([], some flag) else .ok ([.option flag none], none)
  | some flag, some value =>
    if flag.hasValue then .ok ([.option flag (some (String.ofList value))], none)
    else .error (.superfluousValue text)

/-- Reads one argument. An option is returned apart if its value is still to come. -/
def readArgument (known : Flag → Bool) (text : String) :
    Except UsageError (List Argument × Option Flag) :=
  match text.toList with
  | ['-'] => .ok ([.file text], none)
  | '-' :: '-' :: name => readLong known name
  | '-' :: names => readCluster known names
  | _ => .ok ([.file text], none)

/-- Puts what was read of one argument in front of what is read later; an error later on does not
hide it. -/
def consRead (first : List Argument) (later : List Argument × Option UsageError) :
    List Argument × Option UsageError :=
  (first ++ later.1, later.2)

/-- Reads arguments up to the first error. `pending?` is an option whose value is the next argument.
-/
def readArguments (known : Flag → Bool) (pending? : Option Flag) :
    List String → List Argument × Option UsageError
  | [] => ([], pending?.map fun flag => .missingValue flag.long)
  | text :: rest =>
    match pending? with
    | some flag =>
      if isValue text then
        consRead [.option flag (some text)] (readArguments known none rest)
      else ([], some (.missingValue flag.long))
    | none =>
      if text = "--" then (rest.map .file, none)
      else
        match readArgument known text with
        | .error e => ([], some e)
        | .ok (first, pending?) => consRead first (readArguments known pending? rest)

/-- The path that a value names; it must not be empty. -/
def pathValue (flag : Flag) (value : String) : Except UsageError Path :=
  if value = "" then .error (.invalidValue flag.long value) else .ok ⟨value⟩

/-- Sets an option. -/
def BuildArguments.set (a : BuildArguments) (flag : Flag) (value : String) :
    Except UsageError BuildArguments :=
  match flag with
  | .outputDir => do
    let dir ← pathValue flag value
    return { a with overrides := { a.overrides with outputDir? := some dir } }
  | .config => do
    let path ← pathValue flag value
    return { a with config? := some path }
  | .format =>
    match Format.ofName? value with
    | some format => .ok { a with overrides := { a.overrides with format? := some format } }
    | none => .error (.invalidValue flag.long value)
  | .sphinxBuild => .ok { a with overrides := { a.overrides with command? := some value } }
  | .keepWorkdir => .ok { a with overrides := { a.overrides with keepWorkdir? := some true } }
  | .verbose | .help => .ok a

/-- The arguments of `build`, from what was read. `given` are the options met so far; none may be
given twice. A wish for help ends the reading. -/
def collectBuild (given : List Flag) (a : BuildArguments) :
    List Argument × Option UsageError → Except UsageError Command
  | ([], some e) => .error e
  | ([], none) => if a.files.isEmpty then .error .missingFile else .ok (.build a)
  | (.file text :: rest, e?) =>
    if text = "" then .error .emptyFile
    else collectBuild given { a with files := a.files ++ [⟨text⟩] } (rest, e?)
  | (.option flag value? :: rest, e?) => do
    if flag = .help then return .help
    else if given.contains flag then throw (.repeatedOption flag.long)
    else
      let a ← a.set flag (value?.getD "")
      collectBuild (flag :: given) a (rest, e?)

/-- The arguments of `request`, from what was read. -/
def collectRequest (file? : Option Path) :
    List Argument × Option UsageError → Except UsageError Command
  | ([], some e) => .error e
  | ([], none) =>
    match file? with
    | some file => .ok (.request file)
    | none => .error .missingFile
  | (.file text :: rest, e?) =>
    if file?.isSome then .error (.superfluousFile text)
    else if text = "" then .error .emptyFile
    else collectRequest (some ⟨text⟩) (rest, e?)
  | (.option _ _ :: _, _) => .ok .help

/-- The names of the commands. -/
def commandNames : List String := ["build", "request", "help"]

/-- The environment variable with the command that runs Sphinx. The option of the same meaning wins.
-/
def commandVariable : List Char := "SPHINX_BUILD".toList

/-- Adds what the environment sets. -/
def Command.withEnvironment (env : Environment) : Command → Command
  | .build a =>
    let command? := a.overrides.command? <|> (env.get? commandVariable).map String.ofList
    .build { a with overrides := { a.overrides with command? := command? } }
  | r => r

/-- What the user asks for. -/
def Command.parse (env : Environment) : List String → Except UsageError Command
  | [] => .error .missingCommand
  | name :: rest =>
    if name = "build" then
      (collectBuild [] {} (readArguments (fun _ => true) none rest)).map (·.withEnvironment env)
    else if name = "request" then
      collectRequest none (readArguments (fun flag => decide (flag = .help)) none rest)
    else if name = "help" then
      match rest with
      | [] => .ok .help
      | [topic] => if commandNames.contains topic then .ok .help else .error (.unknownCommand topic)
      | _ :: extra :: _ => .error (.unknownCommand extra)
    else
      match name.toList with
      | '-' :: '-' :: 'v' :: _ =>
        if name = "--version" then .ok .version else .error (.unknownOption name)
      | '-' :: 'V' :: _ => .ok .version
      | '-' :: 'h' :: _ => .ok .help
      | '-' :: _ => if name = "--help" then .ok .help else .error (.unknownOption name)
      | _ => .error (.unknownCommand name)

end DocWeave.CommandLine
