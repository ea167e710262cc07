import ControlPlane.Client.Handle
-- A control plane that plays prepared answers and keeps all calls, the failed ones too.
namespace ControlPlane

inductive Refusal where
  | rejected (status : Nat) (message : String)
  | unreachable (detail : String)
deriving DecidableEq

structure Scripted where
  calls : List Call
  streams : List (List Item)
  refusals : List (Method × Refusal)
  opened : Nat
  busiest : Nat

namespace Scripted

def start : Scripted := ⟨[], [], [], 0, 0⟩

def addStream (s : Scripted) (items : List Item) : Scripted :=
  { s with streams := s.streams ++ [items] }

def refuse (s : Scripted) (method : Method) (refusal : Refusal) : Scripted :=
  { s with refusals := (method, refusal) :: s.refusals }

def count (s : Scripted) (method : Method) : Nat :=
  (s.calls.filter fun c => c.method == method).length

def refusal? (s : Scripted) (method : Method) : Option TransportError :=
  (s.refusals.lookup method).map fun
    | .rejected status message => .rejected method status message
    | .unreachable detail => .unreachable "mock" detail

def runtime (n : Nat) : Wire.OpenResponse :=
  ⟨"mock-rt-" ++ Nat.repr n, "/mock/work/" ++ Nat.repr n, ⟨"linux", "amd64", 2, 4294967296⟩⟩

def plainStream : List Item := [.ok .start, .ok (.exited 0)]

def answer (s : Scripted) : (c : Call) → c.Answer × Scripted
  | .opening _ => (runtime (s.opened + 1), { s with opened := s.opened + 1 })
  | .exec _ =>
    (s.streams.head?.getD plainStream,
      { s with streams := s.streams.tail, busiest := max s.busiest 1 })
  | .transfer .. => ((), s)
  | .closing _ => ((), s)

def call (c : Call) (s : Scripted) : Except TransportError c.Answer × Scripted :=
  let s := { s with calls := s.calls ++ [c] }
  match s.refusal? c.method with
  | some error => (.error error, s)
  | none => let answered := s.answer c; (.ok answered.1, answered.2)

def plane : Plane Scripted := ⟨call⟩

end Scripted

end ControlPlane
