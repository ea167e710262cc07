import ControlPlane.Client.Handle
import ControlPlane.Text.Quoted
-- Descriptions of handles.
namespace ControlPlane

def SystemInfo.shown (s : SystemInfo) : String :=
  described "SystemInfo" [("os", quoted s.os), ("arch", quoted s.arch),
    ("total_cpu_cores", Nat.repr s.totalCpuCores.toNat),
    ("total_memory", Nat.repr s.totalMemory.toNat)]

def Handle.stateName (h : Handle) : String := if h.closed then "Closed" else "Open"

def Handle.shown (h : Handle) : String :=
  "Runtime \x7b " ++ ", ".intercalate
    ["id: RuntimeId(" ++ quoted h.id ++ ")",
      "work_directory: " ++ quoted h.runtime.workDirectory,
      "system_info: " ++ h.runtime.systemInfo.shown, "state: " ++ h.stateName, ".. \x7d"]

end ControlPlane
