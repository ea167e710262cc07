-- What an executor reports about its machine. The memory is in bytes, and 0 when it is
-- unknown.
namespace ControlPlane

structure SystemInfo where
  os : String
  arch : String
  totalCpuCores : UInt32
  totalMemory : UInt64
deriving DecidableEq

end ControlPlane
