import ControlPlane.Executor.Backend
import ControlPlane.RuntimeTable
import ControlPlane.Server.ApiError
import ControlPlane.Wire.Message
-- The runtimes that are open on a control plane, and the operations on them. Ids come
-- from outside.
namespace ControlPlane

structure Record where
  workDirectory : String
  displayName : Option String
deriving DecidableEq

-- `state` is the backend's own. The records are in the order of opening.
structure Registry (β : Type) where
  records : RuntimeTable Record
  state : β

structure Service (β : Type) where
  buildId : BuildId
  backend : Backend β
  words : Json.Words

namespace Registry

variable {β : Type}

def start (state : β) : Registry β := ⟨[], state⟩

def isOpen (s : Registry β) (id : String) : Bool := s.records.has ⟨id⟩

def ids (s : Registry β) : List RuntimeId := s.records.map (·.1)

end Registry

namespace Service

variable {β : Type}

def openRuntime (svc : Service β) (fresh : RuntimeId) (request : Wire.OpenRequest)
    (s : Registry β) : Except ApiError Wire.OpenResponse × Registry β :=
  if request.buildId ≠ svc.buildId.text then (.error (.foreignBuild request.buildId), s)
  else
    match request.opts.toConfig with
    | .error e => (.error (.executor (.config e)), s)
    | .ok config =>
      if svc.backend.supports config then
        match svc.backend.openRuntime fresh config s.state with
        | (.error e, state) => (.error (.executor e), { s with state := state })
        | (.ok opened, state) =>
          (.ok ⟨fresh.text, opened.workDirectory, opened.systemInfo⟩,
            ⟨s.records.put fresh ⟨opened.workDirectory, config.displayName⟩, state⟩)
      else (.error (.executor (.backendUnavailable config.backend.name)), s)

def accept (request : Wire.ExecRequest) (s : Registry β) :
    Except ApiError (RuntimeId × ExecOpts) :=
  if s.isOpen request.runtimeId then
    match request.opts.check with
    | .error e => .error (.executor (.config e))
    | .ok () => .ok (⟨request.runtimeId⟩, request.opts)
  else .error (.unknownRuntime request.runtimeId)

def exec (svc : Service β) (request : Wire.ExecRequest) (s : Registry β) :
    Except ApiError Run × Registry β :=
  match accept request s with
  | .error e => (.error e, s)
  | .ok (id, opts) =>
    let ran := svc.backend.exec id opts s.state
    (.ok ran.1, { s with state := ran.2 })

def transfer (svc : Service β) (direction : Direction) (request : Wire.TransferRequest)
    (s : Registry β) : Except ApiError Unit × Registry β :=
  if s.isOpen request.runtimeId then
    match svc.backend.transfer direction ⟨request.runtimeId⟩ request.src request.opts s.state with
    | (.error e, state) => (.error (.executor e), { s with state := state })
    | (.ok (), state) => (.ok (), { s with state := state })
  else (.error (.unknownRuntime request.runtimeId), s)

-- The record goes first, whatever the backend says then.
def close (svc : Service β) (request : Wire.CloseRequest) (s : Registry β) :
    Except ApiError Unit × Registry β :=
  if s.isOpen request.runtimeId then
    let id : RuntimeId := ⟨request.runtimeId⟩
    match svc.backend.close id s.state with
    | (.error e, state) => (.error (.executor e), ⟨s.records.erase id, state⟩)
    | (.ok (), state) => (.ok (), ⟨s.records.erase id, state⟩)
  else (.error (.unknownRuntime request.runtimeId), s)

-- Closes runtimes in the backend. Failures are skipped, and the others counted.
def closeEach (svc : Service β) : List RuntimeId → β → Nat × β
  | [], state => (0, state)
  | id :: rest, state =>
    match svc.backend.close id state with
    | (.error _, state) => closeEach svc rest state
    | (.ok (), state) =>
      let after := closeEach svc rest state
      (after.1 + 1, after.2)

def closeAll (svc : Service β) (s : Registry β) : Nat × Registry β :=
  let closed := svc.closeEach s.ids s.state
  (closed.1, ⟨[], closed.2⟩)

end Service

end ControlPlane
