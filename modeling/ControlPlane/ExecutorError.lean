import ControlPlane.ConfigError
import ControlPlane.Pattern
-- Why an executor cannot do what it is asked to do.
namespace ControlPlane

inductive TransferFault where
  | missingSource (src : String)
  | noMatch (src : String)
  | badPattern (src : String) (error : PatternError)
  | badExclude (pattern : String) (error : PatternError)
  | unreadable (detail : String)
deriving DecidableEq

def TransferFault.message : TransferFault → String
  | .missingSource src => "source '" ++ src ++ "' does not exist"
  | .noMatch src => "no files matched '" ++ src ++ "'"
  | .badPattern src error => "invalid pattern '" ++ src ++ "': " ++ error.message
  | .badExclude pattern error => "invalid exclude '" ++ pattern ++ "': " ++ error.message
  | .unreadable detail => detail

inductive ExecutorError where
  | io (detail : String)
  | config (error : ConfigError)
  | backendUnavailable (name : String)
  | unknownRuntime (id : String)
  | spawnFailed (command detail : String)
  | transfer (fault : TransferFault)
  | sinkClosed
deriving DecidableEq

def ExecutorError.message : ExecutorError → String
  | .io detail => "executor I/O error: " ++ detail
  | .config error => error.message
  | .backendUnavailable name => "backend '" ++ name ++ "' is not available on this executor"
  | .unknownRuntime id => "unknown runtime: " ++ id
  | .spawnFailed command detail => "failed to start '" ++ command ++ "': " ++ detail
  | .transfer fault => "transfer failed: " ++ fault.message
  | .sinkClosed => "event consumer went away"

end ControlPlane
