import ControlPlane.Executor.Backend
import ControlPlane.RuntimeTable
-- A backend that runs nothing, and writes down the operations of each runtime.
namespace ControlPlane.Mock

abbrev Histories := RuntimeTable (List String)

def machine : SystemInfo := ⟨"linux", "amd64", 1, 1073741824⟩

def openRuntime (id : RuntimeId) (_ : RuntimeConfig) (t : Histories) :
    Except ExecutorError Opened × Histories :=
  (.ok ⟨"/mock/" ++ id.text, machine⟩, t.put id [])

def record (id : RuntimeId) (entry : String) (t : Histories) :
    Except ExecutorError Unit × Histories :=
  if t.has id then (.ok (), t.modify id (· ++ [entry]))
  else (.error (.unknownRuntime id.text), t)

def exec (id : RuntimeId) (opts : ExecOpts) (t : Histories) : Run × Histories :=
  match opts.check with
  | .error e => (.refused (.config e), t)
  | .ok () =>
    match record id ("exec " ++ opts.commandLine) t with
    | (.error e, t) => (.refused e, t)
    | (.ok (), t) =>
      (⟨[.start, .stdout (bytesOf ("mock-exec: " ++ opts.commandLine ++ "\n"))], .ok 0⟩, t)

def transfer (direction : Direction) (id : RuntimeId) (src : String) (opts : TransferOpts)
    (t : Histories) : Except ExecutorError Unit × Histories :=
  match opts.check src with
  | .error e => (.error (.config e), t)
  | .ok () => record id (direction.method.name ++ " " ++ src ++ " -> " ++ opts.dest) t

def close (id : RuntimeId) (t : Histories) : Except ExecutorError Unit × Histories :=
  if t.has id then (.ok (), t.erase id) else (.error (.unknownRuntime id.text), t)

def backend : Backend Histories :=
  ⟨"mock", fun _ => true, openRuntime, exec, transfer, close⟩

end ControlPlane.Mock
