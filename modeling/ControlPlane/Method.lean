-- The five calls of the control plane, with the name and the path of each.
namespace ControlPlane

inductive Method where
  | opening
  | exec
  | importing
  | exporting
  | closing
deriving DecidableEq

namespace Method

def all : List Method := [.opening, .exec, .importing, .exporting, .closing]

def name : Method → String
  | .opening => "open"
  | .exec => "exec"
  | .importing => "import"
  | .exporting => "export"
  | .closing => "close"

def path (m : Method) : String := "/v1/" ++ m.name

-- The call a request target names. A query does not count.
def ofTarget? (target : String) : Option Method :=
  let path := String.ofList (target.toList.takeWhile (· ≠ '?'))
  all.find? fun m => m.path = path

end Method

inductive Direction where
  | importing
  | exporting
deriving DecidableEq

def Direction.method : Direction → Method
  | .importing => .importing
  | .exporting => .exporting

def protocolHeader : String := "X-Knita-Protocol"

def protocolVersion : Nat := 1

end ControlPlane
