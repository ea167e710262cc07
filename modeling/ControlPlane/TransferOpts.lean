import ControlPlane.ConfigError
import ControlPlane.Text.Segments
-- Where a transfer copies to and what it leaves out. Both ends of a transfer are relative
-- paths that do not climb.
namespace ControlPlane

def checkRelativePath (path : String) : Except ConfigError Unit :=
  if path.toList.head? = some '/' then .error (.invalidPath path .absolute)
  else if (segments path).contains ".." then .error (.invalidPath path .climbs)
  else .ok ()

structure TransferOpts where
  dest : String
  excludes : List String
deriving DecidableEq

def TransferOpts.check (opts : TransferOpts) (src : String) : Except ConfigError Unit :=
  if src = "" then .error (.invalidPath "" .emptySource)
  else do
    checkRelativePath src
    if opts.dest = "" then .ok () else checkRelativePath opts.dest

end ControlPlane
