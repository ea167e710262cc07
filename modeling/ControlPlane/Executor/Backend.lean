import ControlPlane.Event
import ControlPlane.ExecOpts
import ControlPlane.ExecutorError
import ControlPlane.Identifier
import ControlPlane.Method
import ControlPlane.RuntimeConfig
import ControlPlane.SystemInfo
import ControlPlane.TransferOpts
-- What carries out the work of runtimes, and the stream of events that the run of a
-- command becomes.
namespace ControlPlane

structure Opened where
  workDirectory : String
  systemInfo : SystemInfo
deriving DecidableEq

-- A command that was run: the events it gave rise to, without the end, and its exit code,
-- or why it could not be run.
structure Run where
  events : List Event
  outcome : Except ExecutorError Int32

namespace Run

def refused (error : ExecutorError) : Run := ⟨[], .error error⟩

-- The end of the stream. There is none once the consumer is gone.
def ending? (run : Run) : Option Event :=
  match run.outcome with
  | .ok code => some (.exited code)
  | .error .sinkClosed => none
  | .error e => some (.failed e.message)

def stream (run : Run) : List Event := run.events ++ run.ending?.toList

def upTo (run : Run) (n : Nat) : List Event × Except ExecutorError Unit :=
  (run.stream.take n,
    if run.ending?.isSome ∧ run.stream.length ≤ n then .ok () else .error .sinkClosed)

def toEnd (run : Run) : List Event × Except ExecutorError Unit := run.upTo run.stream.length

end Run

structure Backend (β : Type) where
  name : String
  supports : RuntimeConfig → Bool
  openRuntime : RuntimeId → RuntimeConfig → β → Except ExecutorError Opened × β
  exec : RuntimeId → ExecOpts → β → Run × β
  transfer : Direction → RuntimeId → String → TransferOpts → β → Except ExecutorError Unit × β
  close : RuntimeId → β → Except ExecutorError Unit × β

inductive BackendKind where
  | host
  | mock
deriving DecidableEq

namespace BackendKind

def name : BackendKind → String
  | .host => "host"
  | .mock => "mock"

def select (name : String) : Except ExecutorError BackendKind :=
  match name with
  | "host" => .ok .host
  | "mock" => .ok .mock
  | other => .error (.backendUnavailable other)

end BackendKind

end ControlPlane
