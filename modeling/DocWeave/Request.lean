import DocWeave.Directive.Arguments

/-!
# Requests

A request asks Sphinx to document one module. Each of the four options of `automodule` may be absent,
given as a flag, or given with a value.

- `AutodocOption`: the options, in the order in which they are written.
- `Request`: a module with its options.
- `Request.write`: the directive that asks Sphinx for the module.
-/

namespace DocWeave

/-- An option of `automodule`. -/
inductive AutodocOption where
  | members
  | undocMembers
  | privateMembers
  | specialMembers
deriving Repr, DecidableEq

namespace AutodocOption

/-- All options, in the order in which they are written. -/
def all : List AutodocOption :=
  [.members, .undocMembers, .privateMembers, .specialMembers]

/-- The name of an option, the same in directives and for Sphinx. -/
def name : AutodocOption → String
  | members => "members"
  | undocMembers => "undoc-members"
  | privateMembers => "private-members"
  | specialMembers => "special-members"

/-- The option with a name. -/
def ofName? (text : String) : Option AutodocOption :=
  all.find? fun o => o.name = text

end AutodocOption

/-- The value that a request keeps for a value given in a directive: a flag is kept as the empty
text. -/
def normalizeValue (raw : String) : String :=
  if raw = Directive.flagValue then "" else raw

/-- A request to document one module. An option that is a flag has the empty value. -/
structure Request where
  /-- The dotted path of the module. -/
  moduleName : String
  /-- Value of `members`. -/
  members : Option String := none
  /-- Value of `undoc-members`. -/
  undocMembers : Option String := none
  /-- Value of `private-members`. -/
  privateMembers : Option String := none
  /-- Value of `special-members`. -/
  specialMembers : Option String := none
deriving Repr, DecidableEq

namespace Request

/-- The value of an option. -/
def option? (r : Request) : AutodocOption → Option String
  | .members => r.members
  | .undocMembers => r.undocMembers
  | .privateMembers => r.privateMembers
  | .specialMembers => r.specialMembers

/-- Sets an option to a value given in a directive. -/
def setOption (r : Request) (o : AutodocOption) (raw : String) : Request :=
  match o with
  | .members => { r with members := some (normalizeValue raw) }
  | .undocMembers => { r with undocMembers := some (normalizeValue raw) }
  | .privateMembers => { r with privateMembers := some (normalizeValue raw) }
  | .specialMembers => { r with specialMembers := some (normalizeValue raw) }

@[simp]
theorem option?_setOption (r : Request) (o p : AutodocOption) (raw : String) :
    (r.setOption o raw).option? p = if p = o then some (normalizeValue raw) else r.option? p := by
  cases o <;> cases p <;> rfl

/-- The line of an option: its name between colons, and its value if it is not a flag. -/
def writeOption (o : AutodocOption) (value : String) : List Char :=
  "   :".toList ++ o.name.toList ++ ':' ::
    (if value.toList.isEmpty then [] else ' ' :: value.toList)

/-- The lines of the directive that asks Sphinx for the module: one for the module, then one per
option. -/
def writtenLines (r : Request) : List (List Char) :=
  (".. automodule:: ".toList ++ r.moduleName.toList) ::
    AutodocOption.all.filterMap fun o => (r.option? o).map (writeOption o)

/-- The directive that asks Sphinx for the module. -/
def write (r : Request) : List Char :=
  ['\n'].intercalate r.writtenLines

/-- The directive that asks Sphinx for the module, as a text. -/
def rst (r : Request) : String :=
  String.ofList r.write

end Request

end DocWeave
