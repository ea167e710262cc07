import ControlPlane.Json.Value
-- Tables under construction. A header may write out a table that came about on the way of
-- headers, and dotted keys extend only tables that came about on the way of dotted keys.
namespace ControlPlane.Toml

inductive Origin where
  | written
  | byHeader
  | byKey
deriving DecidableEq

inductive Node where
  | value (v : Json.Value)
  | table (origin : Origin) (entries : List (String × Node))
  | rows (earlier : List (List (String × Node))) (last : List (String × Node))

abbrev Entries := List (String × Node)

def put (key : String) (node : Node) : Entries → Entries
  | [] => [(key, node)]
  | (k, n) :: rest => if k = key then (k, node) :: rest else (k, n) :: put key node rest

-- Edits the table at the end of a path, which starts at a table of the given origin.
-- Tables on the way that do not exist come about; a table in rows is the last one.
def within (dotted : Bool) (edit : Origin → Entries → Option (Origin × Entries)) :
    List String → Origin → Entries → Option (Origin × Entries)
  | [], origin, entries => edit origin entries
  | key :: path, origin, entries =>
    match entries.lookup key with
    | none =>
      (within dotted edit path (if dotted then .byKey else .byHeader) []).map fun (o, sub) =>
        (origin, put key (.table o sub) entries)
    | some (.table o sub) =>
      if dotted ∧ o = .written then none
      else (within dotted edit path o sub).map fun (o, sub) =>
        (origin, put key (.table o sub) entries)
    | some (.rows earlier last) =>
      (within dotted edit path .written last).map fun (_, last) =>
        (origin, put key (.rows earlier last) entries)
    | some (.value _) => none

-- Sets a key of the table that a dotted key reaches. With a dotted key the table must have
-- come about by one.
def setKey (throughDots : Bool) (key : String) (v : Json.Value) (origin : Origin)
    (entries : Entries) : Option (Origin × Entries) :=
  if throughDots ∧ origin ≠ .byKey then none
  else
    match entries.lookup key with
    | some _ => none
    | none => some (origin, put key (.value v) entries)

def setDotted (keys : List String) (v : Json.Value) (origin : Origin) (entries : Entries) :
    Option (Origin × Entries) :=
  match keys.getLast? with
  | none => none
  | some key => within true (setKey (keys.length > 1) key v) keys.dropLast origin entries

def openTable (key : String) (origin : Origin) (entries : Entries) : Option (Origin × Entries) :=
  match entries.lookup key with
  | none => some (origin, put key (.table .written []) entries)
  | some (.table .byHeader sub) => some (origin, put key (.table .written sub) entries)
  | some _ => none

def openRow (key : String) (origin : Origin) (entries : Entries) : Option (Origin × Entries) :=
  match entries.lookup key with
  | none => some (origin, put key (.rows [] []) entries)
  | some (.rows earlier last) => some (origin, put key (.rows (earlier ++ [last]) []) entries)
  | some _ => none

-- A document in the making: the root table and the path of the table that is being
-- written out.
structure Draft where
  root : Entries
  path : List String

def Draft.edit (d : Draft) (path : List String)
    (edit : Origin → Entries → Option (Origin × Entries)) : Option Entries :=
  (within false edit path .written d.root).map (·.2)

def Draft.set (d : Draft) (keys : List String) (v : Json.Value) : Option Draft :=
  (d.edit d.path (setDotted keys v)).map fun root => { d with root }

def Draft.header (d : Draft) (isRow : Bool) (path : List String) : Option Draft :=
  match path.getLast? with
  | none => none
  | some key =>
    (d.edit path.dropLast (if isRow then openRow key else openTable key)).map fun root =>
      { root, path }

mutual
def Node.toJson : Node → Json.Value
  | .value v => v
  | .table _ entries => .object (entriesToJson entries)
  | .rows earlier last => .array (rowsToJson earlier ++ [.object (entriesToJson last)])

def entriesToJson : List (String × Node) → List (Json.Text × Json.Value)
  | [] => []
  | (key, node) :: rest => (some key, node.toJson) :: entriesToJson rest

def rowsToJson : List (List (String × Node)) → List Json.Value
  | [] => []
  | row :: rest => .object (entriesToJson row) :: rowsToJson rest
end

end ControlPlane.Toml
