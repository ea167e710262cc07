import ControlPlane.Client.Error
import ControlPlane.EventReader
import ControlPlane.Wire.Message
-- A control plane as its clients see it: five calls, each answered or failed, and what
-- the plane keeps from call to call.
namespace ControlPlane

inductive Call where
  | opening (request : Wire.OpenRequest)
  | exec (request : Wire.ExecRequest)
  | transfer (direction : Direction) (request : Wire.TransferRequest)
  | closing (request : Wire.CloseRequest)
deriving DecidableEq

namespace Call

def method : Call → Method
  | .opening _ => .opening
  | .exec _ => .exec
  | .transfer direction _ => direction.method
  | .closing _ => .closing

abbrev Answer : Call → Type
  | .opening _ => Wire.OpenResponse
  | .exec _ => List Item
  | .transfer .. => Unit
  | .closing _ => Unit

end Call

structure Plane (σ : Type) where
  call : (c : Call) → σ → Except TransportError c.Answer × σ

def Plane.unreachable (address : String) : Plane Unit :=
  ⟨fun _ state => (.error (.unreachable address "connection refused"), state)⟩

end ControlPlane
