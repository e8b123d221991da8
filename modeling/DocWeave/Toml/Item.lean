import DocWeave.Toml.Value

/-!
# Tables under construction

A document defines its tables piece by piece, and may not define anything twice.

- `Origin`: how a table came about, which decides who may still add to it.
- `Item`: a value, a table, or an array of tables, of which the latest is open.
- `openTable`, `openElement`, `insert`: what the headers and the lines of a document do.
- `Item.toValue`: the finished value.
-/

namespace DocWeave.Toml

/-- How a table came about. -/
inductive Origin where
  /-- It has a header of its own, or is the document. -/
  | header
  /-- It is only on the way to a table with a header. -/
  | path
  /-- It is on the way to the last part of a dotted key. -/
  | dotted
deriving DecidableEq

/-- What a key stands for while a document is read. -/
inductive Item where
  /-- A finished value. -/
  | value (value : Value)
  /-- A table that may still grow. -/
  | table (origin : Origin) (items : List (String × Item))
  /-- An array of tables that are opened one after the other; the earlier ones, latest first. -/
  | tables (latest : List (String × Item)) (earlier : List (List (String × Item)))

/-- The keys of a table under construction. -/
abbrev Items := List (String × Item)

/-- Changes what a key stands for. -/
def replaceItem (items : Items) (key : String) (item : Item) : Items :=
  items.map fun entry => if entry.1 = key then (key, item) else entry

/-- Changes the table at the end of a path. Tables that are missing on the way come about as
`created` says. A dotted key does not lead through a table with a header of its own. -/
def changeAt (created : Origin) (change : Origin → Items → Option Items) :
    List String → Origin → Items → Option Items
  | [], origin, items => change origin items
  | key :: path, _, items =>
    match items.lookup key with
    | none =>
      (changeAt created change path created []).map fun inner => items ++ [(key, .table created inner)]
    | some (.value _) => none
    | some (.table origin inner) =>
      if created = .dotted && origin = .header then none
      else
        (changeAt created change path origin inner).map fun inner =>
          replaceItem items key (.table origin inner)
    | some (.tables latest earlier) =>
      (changeAt created change path .header latest).map fun inner =>
        replaceItem items key (.tables inner earlier)

/-- Changes the table whose header names it, or the table around the last key of such a header. -/
def changeTable (path : List String) (change : Items → Option Items) (root : Items) : Option Items :=
  changeAt .path (fun _ => change) path .header root

/-- Opens the table of a header. It must be new, or so far only on the way to other tables. -/
def openTable (keys : List String) (root : Items) : Option Items :=
  match keys.getLast? with
  | none => none
  | some key =>
    changeTable keys.dropLast (fun items =>
      match items.lookup key with
      | none => some (items ++ [(key, .table .header [])])
      | some (.table .path inner) => some (replaceItem items key (.table .header inner))
      | some _ => none) root

/-- Opens one more table of an array of tables. -/
def openElement (keys : List String) (root : Items) : Option Items :=
  match keys.getLast? with
  | none => none
  | some key =>
    changeTable keys.dropLast (fun items =>
      match items.lookup key with
      | none => some (items ++ [(key, .tables [] [])])
      | some (.tables latest earlier) =>
        some (replaceItem items key (.tables [] (latest :: earlier)))
      | some _ => none) root

/-- Defines a key, which may be dotted, in a table. The table that receives the last part of a
dotted key must itself have come about by a dotted key. -/
def insert (keys : List String) (value : Value) (items : Items) : Option Items :=
  match keys.getLast? with
  | none => none
  | some key =>
    let path := keys.dropLast
    changeAt .dotted (fun origin items =>
      if decide (origin = .dotted) = path.isEmpty then none
      else if (items.lookup key).isSome then none
      else some (items ++ [(key, .value value)])) path .header items

mutual

/-- The value of an item. -/
def Item.toValue : Item → Value
  | .value value => value
  | .table _ items => .table (fieldsOf items)
  | .tables latest earlier => .array (tablesOf earlier [.table (fieldsOf latest)])

/-- The values of the keys of a table. -/
def fieldsOf : List (String × Item) → Fields
  | [] => []
  | entry :: rest => fieldOf entry :: fieldsOf rest

/-- The value of a key. -/
def fieldOf : String × Item → String × Value
  | (key, item) => (key, item.toValue)

/-- Puts tables, which are given latest first, in front of later ones. -/
def tablesOf : List (List (String × Item)) → List Value → List Value
  | [], later => later
  | items :: rest, later => tablesOf rest (.table (fieldsOf items) :: later)

end

end DocWeave.Toml
