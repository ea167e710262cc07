import ControlPlane.RuntimeConfig
import ControlPlane.Text.Quoted
-- Descriptions of credentials that may be shown. No secret is in them.
namespace ControlPlane

def redaction : String := "<redacted>"

def RegistryAuth.shown : RegistryAuth → String
  | .basic username _ =>
    described "Basic" [("username", quoted username), ("password", quoted redaction)]
  | .ecr region accessKeyId _ =>
    described "AwsEcr" [("region", quoted region), ("access_key_id", quoted accessKeyId),
      ("secret_key", quoted redaction)]

def RegistryAuth.shownInRequest : RegistryAuth → String
  | .basic .. => "DockerAuth::Basic(" ++ redaction ++ ")"
  | .ecr .. => "DockerAuth::AwsEcr(" ++ redaction ++ ")"

end ControlPlane
