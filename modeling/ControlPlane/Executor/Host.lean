import ControlPlane.Executor.Backend
import ControlPlane.RuntimeTable
import ControlPlane.Transfer.Copy
-- A backend that runs commands on this machine, in one directory for each runtime. What a
-- program does is up to the machine. The directories come from outside, if they can be
-- made.
namespace ControlPlane

inductive Channel where
  | stdout
  | stderr
deriving DecidableEq

structure Program where
  name : String
  args : List String
  env : List (String × String)
  home : String

inductive ExitStatus where
  | exited (code : Nat)
  | signalled (signal : Nat)
  | other
deriving DecidableEq

-- A signal counts as an exit code above 128.
def ExitStatus.code : ExitStatus → Int32
  | .exited code => Int32.ofNat code
  | .signalled signal => Int32.ofNat (128 + signal)
  | .other => -1

-- A program whose outputs have ended. It may fail to be waited for.
structure Finished where
  output : List (Channel × Bytes)
  status : Except String ExitStatus

def Finished.outcome (finished : Finished) : Except ExecutorError Int32 :=
  match finished.status with
  | .ok status => .ok status.code
  | .error detail => .error (.io detail)

-- Runs a program on the files of its directory, unless it cannot be started.
structure Machine where
  info : SystemInfo
  run : Program → Volume → Except String (Finished × Volume)

namespace Host

structure WorkDirectory where
  path : String
  files : Volume

-- `tried` counts the directories that were to be made.
structure State where
  localFiles : Volume
  works : RuntimeTable WorkDirectory
  tried : Nat

def start (localFiles : Volume) : State := ⟨localFiles, [], 0⟩

def chunkSize : Nat := 8192

def chunks (data : Bytes) : List Bytes :=
  match data with
  | [] => []
  | b :: rest => (b :: rest.take (chunkSize - 1)) :: chunks (rest.drop (chunkSize - 1))
termination_by data.length
decreasing_by simp only [List.length_drop, List.length_cons]; omega

def outputEvents (output : List (Channel × Bytes)) : List Event :=
  output.flatMap fun (channel, data) =>
    (chunks data).map
      (match channel with
        | .stdout => Event.stdout
        | .stderr => Event.stderr)

def supports (config : RuntimeConfig) : Bool := config.backend == .host

def openRuntime (m : Machine) (directory : Nat → Except String String) (id : RuntimeId)
    (config : RuntimeConfig) (s : State) : Except ExecutorError Opened × State :=
  if supports config then
    match directory s.tried with
    | .error detail => (.error (.io detail), { s with tried := s.tried + 1 })
    | .ok path =>
      (.ok ⟨path, m.info⟩,
        { s with works := s.works.put id ⟨path, .ofRoot (.dir [])⟩, tried := s.tried + 1 })
  else (.error (.backendUnavailable config.backend.name), s)

def exec (m : Machine) (id : RuntimeId) (opts : ExecOpts) (s : State) : Run × State :=
  match opts.check with
  | .error e => (.refused (.config e), s)
  | .ok () =>
    match s.works.get? id with
    | none => (.refused (.unknownRuntime id.text), s)
    | some work =>
      match m.run ⟨opts.name, opts.args, opts.envPairs, work.path⟩ work.files with
      | .error detail => (.refused (.spawnFailed opts.name detail), s)
      | .ok (finished, files) =>
        (⟨.start :: outputEvents finished.output, finished.outcome⟩,
          { s with works := s.works.modify id ({ · with files := files }) })

def transfer (direction : Direction) (id : RuntimeId) (src : String) (opts : TransferOpts)
    (s : State) : Except ExecutorError Unit × State :=
  match s.works.get? id with
  | none => (.error (.unknownRuntime id.text), s)
  | some work =>
    match direction with
    | .importing =>
      let copied := Transfer.run s.localFiles work.files src opts
      (copied.1.map fun _ => (),
        { s with works := s.works.modify id ({ · with files := copied.2 }) })
    | .exporting =>
      let copied := Transfer.run work.files s.localFiles src opts
      (copied.1.map fun _ => (), { s with localFiles := copied.2 })

def close (id : RuntimeId) (s : State) : Except ExecutorError Unit × State :=
  if s.works.has id then (.ok (), { s with works := s.works.erase id })
  else (.error (.unknownRuntime id.text), s)

def backend (m : Machine) (directory : Nat → Except String String) : Backend State :=
  ⟨"host", supports, openRuntime m directory, exec m, transfer, close⟩

end Host

end ControlPlane
