import ControlPlane.Json.Record
import ControlPlane.RuntimeConfig
-- The loosely typed description of a runtime, as written in a file. The first fault found
-- is reported.
namespace ControlPlane

structure BasicAuthSection where
  username : String
  password : String
deriving DecidableEq

structure EcrAuthSection where
  region : String
  accessKeyId : String
  secretKey : String
deriving DecidableEq

structure DockerSection where
  image : String
  pullStrategy : Option String
  basicAuth : Option BasicAuthSection
  ecrAuth : Option EcrAuthSection
deriving DecidableEq

structure Manifest where
  backend : String
  tags : Tags
  labels : List String
  docker : Option DockerSection
deriving DecidableEq

namespace DockerSection

def auth (d : DockerSection) : Except ConfigError (Option RegistryAuth) :=
  match d.basicAuth, d.ecrAuth with
  | some _, some _ => .error .conflictingAuth
  | some basic, none => .ok (some (.basic basic.username basic.password))
  | none, some ecr => .ok (some (.ecr ecr.region ecr.accessKeyId ecr.secretKey))
  | none, none => .ok none

def strategy (d : DockerSection) : Except ConfigError (Option PullStrategy) :=
  match d.pullStrategy with
  | none => .ok none
  | some text => (PullStrategy.read text).map some

def toOpts (d : DockerSection) : Except ConfigError DockerOpts :=
  if isBlankText d.image then .error .emptyImage
  else do
    let auth ← d.auth
    let strategy ← d.strategy
    .ok ⟨d.image, strategy, auth, false⟩

end DockerSection

namespace Manifest

def substrate (m : Manifest) : Except ConfigError Substrate :=
  if m.backend = "host" then
    if m.docker.isSome then .error .dockerSectionOnHost else .ok .host
  else if m.backend = "docker" then
    match m.docker with
    | none => .error .emptyImage
    | some docker => docker.toOpts.map .docker
  else .error (.unknownBackend m.backend)

def toConfig (m : Manifest) : Except ConfigError RuntimeConfig := do
  let backend ← m.substrate
  let config : RuntimeConfig := ⟨backend, m.tags, .ofList m.labels⟩
  config.check
  .ok config

def readBasicAuth (leftovers : Json.Leftovers) (v : Json.Value) : Option BasicAuthSection := do
  let fields ← Json.readRecord leftovers ["username", "password"] v
  let username ← fields.required "username" Json.text?
  let password ← fields.required "password" Json.text?
  some ⟨username, password⟩

def readEcrAuth (leftovers : Json.Leftovers) (v : Json.Value) : Option EcrAuthSection := do
  let fields ← Json.readRecord leftovers ["region", "access_key_id", "secret_key"] v
  let region ← fields.required "region" Json.text?
  let accessKeyId ← fields.required "access_key_id" Json.text?
  let secretKey ← fields.required "secret_key" Json.text?
  some ⟨region, accessKeyId, secretKey⟩

def readDocker (leftovers : Json.Leftovers) (v : Json.Value) : Option DockerSection := do
  let fields ←
    Json.readRecord leftovers ["image", "pull_strategy", "basic_auth", "aws_ecr_auth"] v
  let image ← fields.withDefault "image" "" Json.text?
  let pullStrategy ← fields.optional "pull_strategy" Json.text?
  let basicAuth ← fields.optional "basic_auth" (readBasicAuth leftovers)
  let ecrAuth ← fields.optional "aws_ecr_auth" (readEcrAuth leftovers)
  some ⟨image, pullStrategy, basicAuth, ecrAuth⟩

def read (leftovers : Json.Leftovers) (v : Json.Value) : Option Manifest := do
  let fields ← Json.readRecord leftovers ["backend", "tags", "labels", "docker"] v
  let backend ← fields.required "backend" Json.text?
  let tags ← fields.withDefault "tags" .empty fun v => (Json.textMap? v).map Tags.ofList
  let labels ← fields.withDefault "labels" [] Json.texts?
  let docker ← fields.optional "docker" (readDocker leftovers)
  some ⟨backend, tags, labels, docker⟩

def ofJson? (v : Json.Value) : Option Manifest := read .strict v

end Manifest

end ControlPlane
