import ControlPlane.ConfigError
import ControlPlane.Method
-- Why a client's operation fails. A transport error is a failure of the call itself, as
-- opposed to the command that the call carried.
namespace ControlPlane

inductive TransportError where
  | unreachable (address detail : String)
  | rejected (method : Method) (status : Nat) (message : String)
  | unwritable (method : Method) (detail : String)
  | unreadable (method : Method) (detail : String)
deriving DecidableEq

def TransportError.message : TransportError → String
  | .unreachable address detail => "cannot reach control plane at " ++ address ++ ": " ++ detail
  | .rejected method status message =>
    "control plane rejected " ++ method.name ++ " with HTTP " ++ Nat.repr status ++ ": " ++ message
  | .unwritable method detail => "cannot encode " ++ method.name ++ " request: " ++ detail
  | .unreadable method detail => "undecodable " ++ method.name ++ " response: " ++ detail

inductive Violation where
  | malformed (detail : String)
  | secondStart
  | noEnd
  | afterEnd (kind : String)
deriving DecidableEq

def Violation.message : Violation → String
  | .malformed detail => detail
  | .secondStart => "duplicate start event"
  | .noEnd => "stream closed before exec end"
  | .afterEnd kind => kind ++ " element after exec end"

inductive ClientError where
  | configuration (error : ConfigError)
  | closed (runtime : String) (operation : Method)
  | transport (error : TransportError)
  | remote (detail : String)
  | protocol (violation : Violation)
  | exit (code : Int32)
  | transfer (direction : Direction) (message : String)
  | io (detail : String)
deriving DecidableEq

def ClientError.message : ClientError → String
  | .configuration error => "invalid configuration: " ++ error.message
  | .closed runtime operation =>
    "runtime " ++ runtime ++ " is closed, cannot " ++ operation.name
  | .transport error => error.message
  | .remote detail => "remote execution failed: " ++ detail
  | .protocol violation => "protocol violation: " ++ violation.message
  | .exit code => "command exited with code " ++ Int.repr code.toInt
  | .transfer direction message => direction.method.name ++ " failed: " ++ message
  | .io detail => "I/O error: " ++ detail

end ControlPlane
