-- Opaque names: the runtime a call is about and the build session it belongs to. They are
-- ordered by their text.
namespace ControlPlane

structure RuntimeId where
  text : String
deriving DecidableEq

structure BuildId where
  text : String
deriving DecidableEq

def compareTexts (a b : String) : Ordering :=
  if a < b then .lt else if b < a then .gt else .eq

def RuntimeId.compare (a b : RuntimeId) : Ordering := compareTexts a.text b.text

def BuildId.compare (a b : BuildId) : Ordering := compareTexts a.text b.text

end ControlPlane
