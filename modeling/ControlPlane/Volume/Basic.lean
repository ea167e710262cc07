import ControlPlane.Text.Utf8
-- File trees. A volume is a tree named `root` in a directory of its own, so that a path
-- may climb out of the tree and come back.
namespace ControlPlane

abbrev Name := Bytes

-- A file. What is read-only may not be written by this process.
structure File where
  octets : Bytes
  readOnly : Bool
deriving DecidableEq, Inhabited

inductive Node where
  | file (content : File)
  | link (target : Bytes)
  | dir (entries : List (Name × Node))
deriving Inhabited

abbrev Entries := List (Name × Node)

namespace Node

def isDir : Node → Bool
  | .dir _ => true
  | _ => false

def entries : Node → Entries
  | .dir entries => entries
  | _ => []

def child? (n : Node) (name : Name) : Option Node := n.entries.lookup name

def get? (n : Node) : List Name → Option Node
  | [] => some n
  | name :: path => (n.child? name).bind (·.get? path)

def insertEntry (name : Name) (node : Node) : Entries → Entries
  | [] => [(name, node)]
  | (n, old) :: rest =>
    if name < n then (name, node) :: (n, old) :: rest
    else if n = name then (name, node) :: rest
    else (n, old) :: insertEntry name node rest

-- Puts a node at a path. What is missing on the way becomes a directory.
def put : Node → List Name → Node → Node
  | _, [], new => new
  | n, name :: path, new =>
    .dir (insertEntry name (((n.child? name).getD (.dir [])).put path new) n.entries)

def erase : Node → List Name → Node
  | n, [] => n
  | n, [name] => .dir (n.entries.filter fun e => e.1 != name)
  | n, name :: path =>
    match n.child? name with
    | some child => .dir (insertEntry name (child.erase path) n.entries)
    | none => n

mutual
def height : Node → Nat
  | .dir entries => heightOfEntries entries + 1
  | _ => 0

def heightOfEntries : List (Name × Node) → Nat
  | [] => 0
  | (_, n) :: rest => max n.height (heightOfEntries rest)
end

mutual
def descendants : Node → List (List Name × Node)
  | .dir entries => descendantsOfEntries entries
  | _ => []

def descendantsOfEntries : List (Name × Node) → List (List Name × Node)
  | [] => []
  | (name, n) :: rest =>
    ([name], n) :: n.descendants.map (fun (path, m) => (name :: path, m))
      ++ descendantsOfEntries rest
end

end Node

structure Volume where
  top : Entries

namespace Volume

def rootName : Name := bytesOf "root"

def topNode (v : Volume) : Node := .dir v.top

def ofRoot (root : Node) : Volume := ⟨[(rootName, root)]⟩

def root? (v : Volume) : Option Node := v.top.lookup rootName

def node? (v : Volume) (path : List Name) : Option Node := v.topNode.get? path

def put (v : Volume) (path : List Name) (node : Node) : Volume :=
  ⟨(v.topNode.put path node).entries⟩

def erase (v : Volume) (path : List Name) : Volume := ⟨(v.topNode.erase path).entries⟩

end Volume

end ControlPlane
