import DocWeave.Directive.Leaf
import DocWeave.Request

/-!
# The directive `automodule`

- `isModulePath`: what may name a module.
- `ModuleError`: what can be wrong with the module of a directive.
- `requestOf`: the request that a directive makes; `unknownKeys`: what it has besides.
-/

namespace DocWeave.Directive

/-- The name of the directive. -/
def automodule : String := "automodule"

/-- Whether a character may start an identifier. -/
def isIdentifierStart (c : Char) : Bool :=
  c.isAlpha || c = '_'

/-- Whether a character may stand inside an identifier. -/
def isIdentifierChar (c : Char) : Bool :=
  c.isAlphanum || c = '_'

/-- Whether a text is made of identifiers of ASCII characters, separated by single dots. `start`
tells whether an identifier has to start here. -/
def isModulePathFrom (start : Bool) : List Char → Bool
  | [] => !start
  | c :: rest =>
    if start then isIdentifierStart c && isModulePathFrom false rest
    else if c = '.' then isModulePathFrom true rest
    else isIdentifierChar c && isModulePathFrom false rest

/-- Whether a text is the dotted path of a module. -/
def isModulePath (text : List Char) : Bool :=
  isModulePathFrom true text

/-- What can be wrong with the module of a directive. -/
inductive ModuleError where
  /-- There is none. -/
  | missing
  /-- It is not a dotted path. -/
  | invalid (text : String)
deriving Repr, DecidableEq

/-- The wording of an error on a line, counted from one. -/
def ModuleError.message (line : Nat) : ModuleError → String
  | .missing =>
    "line " ++ Nat.repr line ++ ": automodule requires a module name, e.g. ::automodule[pkg.mod]"
  | .invalid text => "line " ++ Nat.repr line ++ ": '" ++ text ++ "' is not a valid module name"

/-- Sets the options that the attributes name. -/
def applyOptions (args : Arguments) (request : Request) : Request :=
  AutodocOption.all.foldl
    (fun r o =>
      match args.get? o.name with
      | some raw => r.setOption o raw
      | none => r)
    request

/-- The request that a directive with these arguments makes. -/
def requestOf (args : Arguments) : Except ModuleError Request :=
  if args.content.toList.isEmpty then .error .missing
  else if isModulePath args.content.toList then .ok (applyOptions args { moduleName := args.content })
  else .error (.invalid args.content)

/-- The keys that are no options, in ascending order. -/
def unknownKeys (args : Arguments) : List String :=
  args.keys.filter fun key => (AutodocOption.ofName? key).isNone

end DocWeave.Directive
