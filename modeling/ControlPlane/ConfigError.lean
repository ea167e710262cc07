-- Why a description of a runtime, a command or a transfer is refused.
namespace ControlPlane

inductive Setting where
  | buildId
  | socket
deriving DecidableEq

def Setting.variable : Setting → String
  | .buildId => "KNITA_BUILD_ID"
  | .socket => "KNITA_SOCKET"

inductive PathFault where
  | emptySource
  | absolute
  | climbs
deriving DecidableEq

def PathFault.reason : PathFault → String
  | .emptySource => "source must not be empty"
  | .absolute => "must be relative"
  | .climbs => "must not contain '..'"

inductive ConfigError where
  | unreadable (detail : String)
  | notToml (detail : String)
  | unknownBackend (name : String)
  | emptyImage
  | conflictingAuth
  | unknownPullStrategy (text : String)
  | dockerSectionOnHost
  | emptyCommand
  | invalidEnv (entry : String)
  | invalidPath (path : String) (fault : PathFault)
  | missingSetting (setting : Setting)
deriving DecidableEq

def ConfigError.message : ConfigError → String
  | .unreadable detail => "failed to read runtime file: " ++ detail
  | .notToml detail => "failed to parse runtime file: " ++ detail
  | .unknownBackend name =>
    "unknown runtime backend: '" ++ name ++ "', expected 'host' or 'docker'"
  | .emptyImage => "docker backend requires a non-empty image"
  | .conflictingAuth =>
    "at most one docker registry auth may be set, got both basic and AWS ECR auth"
  | .unknownPullStrategy text =>
    "unknown docker pull strategy: '" ++ text
      ++ "', expected 'always', 'never' or 'if-not-present'"
  | .dockerSectionOnHost => "'docker' is only valid for the docker backend"
  | .emptyCommand => "exec command name must not be empty"
  | .invalidEnv entry => "invalid environment entry '" ++ entry ++ "', expected 'KEY=value'"
  | .invalidPath path fault => "invalid path '" ++ path ++ "': " ++ fault.reason
  | .missingSetting setting => "missing required setting: " ++ setting.variable

end ControlPlane
