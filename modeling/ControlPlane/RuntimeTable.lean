import ControlPlane.Identifier
-- What is kept for each runtime, by its id and in the order in which the ids came.
namespace ControlPlane

abbrev RuntimeTable (α : Type) := List (RuntimeId × α)

namespace RuntimeTable

variable {α : Type}

def get? (t : RuntimeTable α) (id : RuntimeId) : Option α := t.lookup id

def has (t : RuntimeTable α) (id : RuntimeId) : Bool := (t.get? id).isSome

def put (t : RuntimeTable α) (id : RuntimeId) (a : α) : RuntimeTable α :=
  match t with
  | [] => [(id, a)]
  | (i, b) :: rest => if i = id then (id, a) :: rest else (i, b) :: put rest id a

def modify (t : RuntimeTable α) (id : RuntimeId) (f : α → α) : RuntimeTable α :=
  t.map fun e => if e.1 = id then (e.1, f e.2) else e

def erase (t : RuntimeTable α) (id : RuntimeId) : RuntimeTable α := t.filter fun e => e.1 ≠ id

end RuntimeTable

end ControlPlane
