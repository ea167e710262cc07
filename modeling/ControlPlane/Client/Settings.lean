import ControlPlane.ConfigError
import ControlPlane.Identifier
import ControlPlane.Text.Blank
-- How a build reaches its control plane. The address may have a scheme, and never ends in
-- a slash.
namespace ControlPlane

structure Settings where
  buildId : BuildId
  address : String
deriving DecidableEq

namespace Settings

def make (buildId address : String) : Settings := ⟨⟨buildId⟩, trimSlashes address⟩

-- A setting without the blanks around it. A blank one counts as missing.
def required (lookup : String → Option String) (setting : Setting) :
    Except ConfigError String :=
  match lookup setting.variable with
  | some value => if isBlankText value then .error (.missingSetting setting) else .ok (trim value)
  | none => .error (.missingSetting setting)

def ofLookup (lookup : String → Option String) : Except ConfigError Settings := do
  let buildId ← required lookup .buildId
  let address ← required lookup .socket
  .ok (make buildId address)

def hasScheme (address : String) : Bool :=
  "http://".toList.isPrefixOf address.toList || "https://".toList.isPrefixOf address.toList

def baseUrl (s : Settings) : String :=
  if hasScheme s.address then s.address else "http://" ++ s.address

end Settings

end ControlPlane
