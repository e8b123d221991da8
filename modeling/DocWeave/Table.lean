/-!
# Tables by name

A table holds one value per name, in ascending order of names.

- `Table.update`: changes the value of one name, which is entered in its place if need be.
- `Table.get?`, `Table.names`: look-up and listing.
-/

namespace DocWeave

/-- Values by name, in ascending order of names. -/
abbrev Table (α : Type) := List (String × α)

namespace Table

variable {α : Type}

/-- Replaces the value of a name; the new value may depend on the old one. -/
def update (name : String) (f : Option α → α) : Table α → Table α
  | [] => [(name, f none)]
  | (key, value) :: rest =>
    if name < key then (name, f none) :: (key, value) :: rest
    else if name = key then (key, f (some value)) :: rest
    else (key, value) :: update name f rest

/-- Sets the value of a name. -/
def put (t : Table α) (name : String) (value : α) : Table α :=
  update name (fun _ => value) t

/-- The value of a name. -/
def get? (t : Table α) (name : String) : Option α :=
  t.lookup name

/-- The names that have a value, in ascending order. -/
def names (t : Table α) : List String :=
  t.map (·.1)

end Table

end DocWeave
