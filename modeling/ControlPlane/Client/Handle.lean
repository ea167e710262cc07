import ControlPlane.Client.Demux
import ControlPlane.Client.Plane
import ControlPlane.Identifier
import ControlPlane.Text.Segments
-- The life of one runtime as its client sees it. Nothing is sent once it is closed, nor
-- for an operation whose arguments are invalid.
namespace ControlPlane

structure Client (σ : Type) where
  buildId : BuildId
  plane : Plane σ

-- A runtime that was opened, with the calls that were sent for it so far.
structure Handle where
  runtime : Wire.OpenResponse
  closed : Bool
  calls : List Call
deriving DecidableEq

namespace Handle

def id (h : Handle) : String := h.runtime.runtimeId

def enter (h : Handle) (operation : Method) : Except ClientError Unit :=
  if h.closed then .error (.closed h.id operation) else .ok ()

end Handle

def joinWorkDirectory (base rel : String) : String :=
  match cleanNames (segments rel) with
  | [] => base
  | names => trimSlashes base ++ "/" ++ joinNames names

inductive Action where
  | exec (opts : ExecOpts) (stdout stderr : Outlet)
  | capture (opts : ExecOpts)
  | transfer (direction : Direction) (src : String) (opts : TransferOpts)
  | close

namespace Action

abbrev Answer : Action → Type
  | .exec .. => Demuxed
  | .capture _ => Except ClientError Captured
  | .transfer .. => Except ClientError Unit
  | .close => Except ClientError Unit

def method : Action → Method
  | .exec .. => .exec
  | .capture _ => .exec
  | .transfer direction .. => direction.method
  | .close => .closing

end Action

namespace Client

variable {σ : Type}

def openRuntime (c : Client σ) (config : RuntimeConfig) (state : σ) :
    Except ClientError Handle × σ :=
  match config.check with
  | .error e => (.error (.configuration e), state)
  | .ok () =>
    let call : Call := .opening ⟨c.buildId.text, .ofConfig config⟩
    match c.plane.call call state with
    | (.error e, state) => (.error (.transport e), state)
    | (.ok runtime, state) => (.ok ⟨runtime, false, [call]⟩, state)

def send (c : Client σ) (call : Call) (h : Handle) (state : σ) :
    Except TransportError call.Answer × Handle × σ :=
  let answer := c.plane.call call state
  (answer.1, { h with calls := h.calls ++ [call] }, answer.2)

def notRun (error : ClientError) (stdout stderr : Outlet) : Demuxed :=
  ⟨.error error, stdout, stderr, []⟩

def exec (c : Client σ) (opts : ExecOpts) (stdout stderr : Outlet) (h : Handle) (state : σ) :
    Demuxed × Handle × σ :=
  match h.enter .exec with
  | .error e => (notRun e stdout stderr, h, state)
  | .ok () =>
    match opts.check with
    | .error e => (notRun (.configuration e) stdout stderr, h, state)
    | .ok () =>
      match c.send (.exec ⟨h.id, opts⟩) h state with
      | (.error e, after) => (notRun (.transport e) stdout stderr, after)
      | (.ok items, after) => (demux items stdout stderr, after)

def capture (c : Client σ) (opts : ExecOpts) (h : Handle) (state : σ) :
    Except ClientError Captured × Handle × σ :=
  let taken := c.exec opts (some (.ofSink .buffer)) (some (.ofSink .buffer)) h state
  (Captured.ofDemuxed taken.1, taken.2)

-- A rejected transfer is reported as such. A transfer that never arrived is not.
def transferError (direction : Direction) : TransportError → ClientError
  | .rejected _ _ message => .transfer direction message
  | other => .transport other

def transfer (c : Client σ) (direction : Direction) (src : String) (opts : TransferOpts)
    (h : Handle) (state : σ) : Except ClientError Unit × Handle × σ :=
  match h.enter direction.method with
  | .error e => (.error e, h, state)
  | .ok () =>
    match opts.check src with
    | .error e => (.error (.configuration e), h, state)
    | .ok () =>
      match c.send (.transfer direction ⟨h.id, src, opts.dest, opts.excludes⟩) h state with
      | (.error e, after) => (.error (transferError direction e), after)
      | (.ok (), after) => (.ok (), after)

def close (c : Client σ) (h : Handle) (state : σ) : Except ClientError Unit × Handle × σ :=
  match h.enter .closing with
  | .error e => (.error e, h, state)
  | .ok () =>
    match c.send (.closing ⟨h.id⟩) { h with closed := true } state with
    | (.error e, after) => (.error (.transport e), after)
    | (.ok (), after) => (.ok (), after)

def perform (c : Client σ) : (a : Action) → Handle → σ → a.Answer × Handle × σ
  | .exec opts stdout stderr => c.exec opts stdout stderr
  | .capture opts => c.capture opts
  | .transfer direction src opts => c.transfer direction src opts
  | .close => c.close

-- What a guard does when it lets go of a runtime: it closes it unless that was done.
def closeOnce (c : Client σ) (h : Handle) (state : σ) : Except ClientError Unit × Handle × σ :=
  if h.closed then (.ok (), h, state) else c.close h state

end Client

end ControlPlane
