import ControlPlane.ExecOpts
import ControlPlane.SystemInfo
import ControlPlane.TransferOpts
import ControlPlane.Wire.Backend
-- The bodies of requests and responses, each with its document form. Members are written
-- in the order of the fields; unknown members are ignored when reading.
namespace ControlPlane.Wire

structure OpenOpts where
  backend : BackendSpec
  tags : Tags
  labels : List String
deriving DecidableEq

structure OpenRequest where
  buildId : String
  opts : OpenOpts
deriving DecidableEq

structure OpenResponse where
  runtimeId : String
  workDirectory : String
  systemInfo : SystemInfo
deriving DecidableEq

structure ExecRequest where
  runtimeId : String
  opts : ExecOpts
deriving DecidableEq

structure TransferRequest where
  runtimeId : String
  src : String
  dest : String
  excludes : List String
deriving DecidableEq

structure CloseRequest where
  runtimeId : String
deriving DecidableEq

structure Empty where
deriving DecidableEq

structure ErrorBody where
  message : String
deriving DecidableEq

def tagsToJson (tags : Tags) : Json.Value :=
  .record (tags.entries.map fun e => (e.1, .ofString e.2))

def tagsOfJson? (v : Json.Value) : Option Tags := (Json.textMap? v).map Tags.ofList

def OpenOpts.toJson (o : OpenOpts) : Json.Value :=
  .record [("backend", o.backend.toJson), ("tags", tagsToJson o.tags),
    ("labels", .ofStrings o.labels)]

def OpenOpts.ofJson? (outer : Nat) (v : Json.Value) : Option OpenOpts := do
  let fields ← Json.readRecord .lenient ["backend", "tags", "labels"] v
  let backend ← fields.required "backend" (BackendSpec.ofJson? (outer + 1))
  let tags ← fields.withDefault "tags" .empty tagsOfJson?
  let labels ← fields.withDefault "labels" [] Json.texts?
  some ⟨backend, tags, labels⟩

def execOptsToJson (o : ExecOpts) : Json.Value :=
  .record [("name", .ofString o.name), ("args", .ofStrings o.args), ("env", .ofStrings o.env),
    ("tags", tagsToJson o.tags)]

def execOptsOfJson? (v : Json.Value) : Option ExecOpts := do
  let fields ← Json.readRecord .lenient ["name", "args", "env", "tags"] v
  let name ← fields.required "name" Json.text?
  let args ← fields.withDefault "args" [] Json.texts?
  let env ← fields.withDefault "env" [] Json.texts?
  let tags ← fields.withDefault "tags" .empty tagsOfJson?
  some ⟨name, args, env, tags⟩

def transferOptsToJson (o : TransferOpts) : Json.Value :=
  .record [("dest", .ofString o.dest), ("excludes", .ofStrings o.excludes)]

def transferOptsOfJson? (v : Json.Value) : Option TransferOpts := do
  let fields ← Json.readRecord .lenient ["dest", "excludes"] v
  let dest ← fields.withDefault "dest" "" Json.text?
  let excludes ← fields.withDefault "excludes" [] Json.texts?
  some ⟨dest, excludes⟩

def systemInfoToJson (s : SystemInfo) : Json.Value :=
  .record [("os", .ofString s.os), ("arch", .ofString s.arch),
    ("total_cpu_cores", .ofNat s.totalCpuCores.toNat),
    ("total_memory", .ofNat s.totalMemory.toNat)]

def systemInfoOfJson? (v : Json.Value) : Option SystemInfo := do
  let fields ← Json.readRecord .lenient ["os", "arch", "total_cpu_cores", "total_memory"] v
  let os ← fields.required "os" Json.text?
  let arch ← fields.required "arch" Json.text?
  let cores ← fields.required "total_cpu_cores" (Json.natBelow? UInt32.size)
  let memory ← fields.required "total_memory" (Json.natBelow? UInt64.size)
  some ⟨os, arch, UInt32.ofNat cores, UInt64.ofNat memory⟩

def OpenRequest.toJson (r : OpenRequest) : Json.Value :=
  .record [("build_id", .ofString r.buildId), ("opts", r.opts.toJson)]

def OpenRequest.ofJson? (v : Json.Value) : Option OpenRequest := do
  let fields ← Json.readRecord .lenient ["build_id", "opts"] v
  let buildId ← fields.required "build_id" Json.text?
  let opts ← fields.required "opts" (OpenOpts.ofJson? 1)
  some ⟨buildId, opts⟩

def OpenResponse.toJson (r : OpenResponse) : Json.Value :=
  .record [("runtime_id", .ofString r.runtimeId), ("work_directory", .ofString r.workDirectory),
    ("system_info", systemInfoToJson r.systemInfo)]

def OpenResponse.ofJson? (v : Json.Value) : Option OpenResponse := do
  let fields ← Json.readRecord .lenient ["runtime_id", "work_directory", "system_info"] v
  let runtimeId ← fields.required "runtime_id" Json.text?
  let workDirectory ← fields.required "work_directory" Json.text?
  let systemInfo ← fields.required "system_info" systemInfoOfJson?
  some ⟨runtimeId, workDirectory, systemInfo⟩

def ExecRequest.toJson (r : ExecRequest) : Json.Value :=
  .record [("runtime_id", .ofString r.runtimeId), ("opts", execOptsToJson r.opts)]

def ExecRequest.ofJson? (v : Json.Value) : Option ExecRequest := do
  let fields ← Json.readRecord .lenient ["runtime_id", "opts"] v
  let runtimeId ← fields.required "runtime_id" Json.text?
  let opts ← fields.required "opts" execOptsOfJson?
  some ⟨runtimeId, opts⟩

def TransferRequest.toJson (r : TransferRequest) : Json.Value :=
  .record [("runtime_id", .ofString r.runtimeId), ("src_path", .ofString r.src),
    ("dest_path", .ofString r.dest), ("excludes", .ofStrings r.excludes)]

def TransferRequest.ofJson? (v : Json.Value) : Option TransferRequest := do
  let fields ← Json.readRecord .lenient ["runtime_id", "src_path", "dest_path", "excludes"] v
  let runtimeId ← fields.required "runtime_id" Json.text?
  let src ← fields.required "src_path" Json.text?
  let dest ← fields.withDefault "dest_path" "" Json.text?
  let excludes ← fields.withDefault "excludes" [] Json.texts?
  some ⟨runtimeId, src, dest, excludes⟩

def TransferRequest.opts (r : TransferRequest) : TransferOpts := ⟨r.dest, r.excludes⟩

def CloseRequest.toJson (r : CloseRequest) : Json.Value :=
  .record [("runtime_id", .ofString r.runtimeId)]

def CloseRequest.ofJson? (v : Json.Value) : Option CloseRequest := do
  let fields ← Json.readRecord .lenient ["runtime_id"] v
  let runtimeId ← fields.required "runtime_id" Json.text?
  some ⟨runtimeId⟩

def Empty.toJson (_ : Empty) : Json.Value := .record []

def Empty.ofJson? (v : Json.Value) : Option Empty :=
  (Json.readRecord .lenient [] v).map fun _ => ⟨⟩

def ErrorBody.toJson (b : ErrorBody) : Json.Value := .record [("message", .ofString b.message)]

def ErrorBody.ofJson? (v : Json.Value) : Option ErrorBody := do
  let fields ← Json.readRecord .lenient ["message"] v
  let message ← fields.required "message" Json.text?
  some ⟨message⟩

def OpenOpts.ofConfig (config : RuntimeConfig) : OpenOpts where
  backend :=
    match config.backend with
    | .host => .host
    | .docker opts => .docker opts.image opts.pullStrategy opts.auth
  tags := config.tags
  labels := config.labels.names

def OpenOpts.substrate (o : OpenOpts) : Substrate :=
  match o.backend with
  | .host => .host
  | .docker image pullStrategy auth => .docker ⟨image, pullStrategy, auth, false⟩

def OpenOpts.toConfig (o : OpenOpts) : Except ConfigError RuntimeConfig := do
  let config : RuntimeConfig := ⟨o.substrate, o.tags, .ofList o.labels⟩
  config.check
  .ok config

end ControlPlane.Wire
