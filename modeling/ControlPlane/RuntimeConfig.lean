import ControlPlane.ConfigError
import ControlPlane.Metadata
import ControlPlane.Text.Blank
-- The typed description of a requested runtime and its step-by-step construction. A
-- second scheme of credentials is remembered as a conflict, whatever is set afterwards.
namespace ControlPlane

inductive PullStrategy where
  | always
  | never
  | ifNotPresent
deriving DecidableEq

namespace PullStrategy

def name : PullStrategy → String
  | .always => "always"
  | .never => "never"
  | .ifNotPresent => "if-not-present"

def ofName? : String → Option PullStrategy
  | "always" => some .always
  | "never" => some .never
  | "if-not-present" => some .ifNotPresent
  | "not-exists" => some .ifNotPresent
  | _ => none

def read (text : String) : Except ConfigError PullStrategy :=
  match ofName? text with
  | some strategy => .ok strategy
  | none => .error (.unknownPullStrategy text)

end PullStrategy

inductive RegistryAuth where
  | basic (username password : String)
  | ecr (region accessKeyId secretKey : String)
deriving DecidableEq

def RegistryAuth.sameScheme : RegistryAuth → RegistryAuth → Bool
  | .basic .., .basic .. => true
  | .ecr .., .ecr .. => true
  | _, _ => false

structure DockerOpts where
  image : String
  pullStrategy : Option PullStrategy
  auth : Option RegistryAuth
  conflicting : Bool
deriving DecidableEq

namespace DockerOpts

def ofImage (image : String) : DockerOpts := ⟨image, none, none, false⟩

def setPullStrategy (opts : DockerOpts) (strategy : PullStrategy) : DockerOpts :=
  { opts with pullStrategy := some strategy }

def setAuth (opts : DockerOpts) (auth : RegistryAuth) : DockerOpts :=
  { opts with
    auth := some auth
    conflicting := opts.conflicting || opts.auth.any fun old => !old.sameScheme auth }

end DockerOpts

inductive Substrate where
  | host
  | docker (opts : DockerOpts)
deriving DecidableEq

def Substrate.name : Substrate → String
  | .host => "host"
  | .docker _ => "docker"

structure RuntimeConfig where
  backend : Substrate
  tags : Tags
  labels : Labels
deriving DecidableEq

namespace RuntimeConfig

def ofBackend (backend : Substrate) : RuntimeConfig := ⟨backend, .empty, .empty⟩

-- One step of building a description. The docker steps do nothing on the host.
inductive Step where
  | tag (name value : String)
  | tags (entries : List (String × String))
  | label (label : String)
  | labels (names : List String)
  | pullStrategy (strategy : PullStrategy)
  | auth (auth : RegistryAuth)

def onDocker (f : DockerOpts → DockerOpts) : Substrate → Substrate
  | .host => .host
  | .docker opts => .docker (f opts)

def apply (config : RuntimeConfig) : Step → RuntimeConfig
  | .tag name value => { config with tags := config.tags.insert name value }
  | .tags entries => { config with tags := config.tags.insertAll entries }
  | .label label => { config with labels := config.labels.insert label }
  | .labels names => { config with labels := config.labels.insertAll names }
  | .pullStrategy strategy =>
    { config with backend := onDocker (·.setPullStrategy strategy) config.backend }
  | .auth auth => { config with backend := onDocker (·.setAuth auth) config.backend }

def applyAll (config : RuntimeConfig) (steps : List Step) : RuntimeConfig :=
  steps.foldl apply config

def check (config : RuntimeConfig) : Except ConfigError Unit :=
  match config.backend with
  | .host => .ok ()
  | .docker opts =>
    if isBlankText opts.image then .error .emptyImage
    else if opts.conflicting then .error .conflictingAuth
    else .ok ()

def displayName (config : RuntimeConfig) : Option String := config.tags.get? "name"

end RuntimeConfig

end ControlPlane
