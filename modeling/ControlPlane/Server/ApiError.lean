import ControlPlane.ExecutorError
import ControlPlane.Method
-- Why the control plane refuses a request, and what it says then.
namespace ControlPlane

inductive ApiError where
  | noEndpoint (target : String)
  | wrongVerb
  | noVersion
  | wrongVersion (value : String)
  | unread
  | unreadable (method : Method) (detail : String)
  | foreignBuild (buildId : String)
  | executor (error : ExecutorError)
deriving DecidableEq

namespace ApiError

def unknownRuntime (id : String) : ApiError := .executor (.unknownRuntime id)

def statusOf : ExecutorError → Nat
  | .unknownRuntime _ => 404
  | .config _ => 400
  | _ => 500

def status : ApiError → Nat
  | .noEndpoint _ => 404
  | .wrongVerb => 405
  | .noVersion => 400
  | .wrongVersion _ => 400
  | .unread => 400
  | .unreadable .. => 400
  | .foreignBuild _ => 403
  | .executor error => statusOf error

def message : ApiError → String
  | .noEndpoint target => "no such endpoint: " ++ target
  | .wrongVerb => "method not allowed"
  | .noVersion => "missing " ++ protocolHeader ++ " header"
  | .wrongVersion value =>
    "unsupported protocol version '" ++ value ++ "', expected " ++ Nat.repr protocolVersion
  | .unread => "read error"
  | .unreadable method detail => "invalid " ++ method.name ++ " request: " ++ detail
  | .foreignBuild buildId => "build id '" ++ buildId ++ "' does not match this control plane"
  | .executor error => error.message

end ApiError

end ControlPlane
