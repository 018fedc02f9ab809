import Phrasebook.Ordered
import Phrasebook.Toml.Value

/-! # Tables of TOML

A file describes its tables piece by piece, by headers and by dotted keys, and each
table may be defined once only. What has been described so far is kept with the way
in which each table came to be (`Phrasebook.Toml.Item`). Headers open tables
(`Phrasebook.Toml.openTable?`, `Phrasebook.Toml.openElement?`) and assignments fill
them (`Phrasebook.Toml.assign?`).
-/

namespace Phrasebook.Toml

/-- How a table came to be: on the way to another table that a header names, by a
dotted key, or by a header of its own. -/
inductive Origin
  | implied
  | dotted
  | header
deriving DecidableEq, Repr

/-- What stands under a key: a value, a table, or an array of tables of which the
last is still open. -/
inductive Item
  | value (content : Value)
  | table (origin : Origin) (members : List (String × Item))
  | tables (earlier : List (List (String × Item))) (last : List (String × Item))

/-- The members of a table, in increasing order of their keys. -/
abbrev Members := List (String × Item)

namespace Members

/-- Puts an item under a key. -/
def put (members : Members) (key : String) (item : Item) : Members :=
  Ordered.insert Prod.fst (key, item) members

end Members

mutual

/-- The value that an item stands for. -/
def Item.toValue : Item → Value
  | .value content => content
  | .table _ members => .table (Item.toMembers members)
  | .tables earlier last => .array (Item.toTables earlier ++ [.table (Item.toMembers last)])

/-- The members of the table that items describe. -/
def Item.toMembers : List (String × Item) → List (String × Value)
  | [] => []
  | (key, item) :: rest => (key, item.toValue) :: Item.toMembers rest

/-- The tables that stand one after another in an array. -/
def Item.toTables : List (List (String × Item)) → List Value
  | [] => []
  | members :: rest => .table (Item.toMembers members) :: Item.toTables rest

end

/-- Changes the members at the end of a path of keys. Tables that are missing on
the way come to be, and of an array of tables the last is taken. -/
def within? (change : Members → Option Members) : List String → Members → Option Members
  | [], members => change members
  | key :: path, members =>
    match members.lookup key with
    | none => (within? change path []).map fun inner => members.put key (.table .implied inner)
    | some (.table origin inner) =>
      (within? change path inner).map fun inner => members.put key (.table origin inner)
    | some (.tables earlier last) =>
      (within? change path last).map fun last => members.put key (.tables earlier last)
    | some (.value _) => none

/-- Opens the table that a header names. It must be new, or known only from the
headers of tables inside it. -/
def openTable? (path : List String) (members : Members) : Option Members :=
  match path.getLast? with
  | none => none
  | some key =>
    within?
      (fun members =>
        match members.lookup key with
        | none => some (members.put key (.table .header []))
        | some (.table .implied inner) => some (members.put key (.table .header inner))
        | _ => none)
      path.dropLast members

/-- Opens another table of the array that a header names. -/
def openElement? (path : List String) (members : Members) : Option Members :=
  match path.getLast? with
  | none => none
  | some key =>
    within?
      (fun members =>
        match members.lookup key with
        | none => some (members.put key (.tables [] []))
        | some (.tables earlier last) => some (members.put key (.tables (earlier ++ [last]) []))
        | _ => none)
      path.dropLast members

/-- Puts a value under a dotted key. The key must be new, and the table that takes
the value must have come to be by a dotted key. -/
def assign? (value : Value) : List String → Members → Option Members
  | [], _ => none
  | [key], members =>
    if (members.lookup key).isSome then none else some (members.put key (.value value))
  | key :: path, members =>
    match members.lookup key with
    | none => (assign? value path []).map fun inner => members.put key (.table .dotted inner)
    | some (.table .dotted inner) =>
      (assign? value path inner).map fun inner => members.put key (.table .dotted inner)
    | some (.table .implied inner) =>
      if path.length = 1 then none
      else (assign? value path inner).map fun inner => members.put key (.table .implied inner)
    | some (.tables earlier last) =>
      if path.length = 1 then none
      else (assign? value path last).map fun last => members.put key (.tables earlier last)
    | some _ => none

end Phrasebook.Toml
