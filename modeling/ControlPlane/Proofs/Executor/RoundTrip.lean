import ControlPlane.Executor.Host
import ControlPlane.Proofs.RuntimeTable
import ControlPlane.Proofs.Transfer.RoundTrip
-- What is imported into a new runtime of this machine comes back as it was by an export
-- of the same source.
namespace ControlPlane.Host

open Transfer Volume

variable {m : Machine} {directory : Nat → Except String String} {id : RuntimeId} {config : RuntimeConfig}
  {s : State} {work : WorkDirectory} {src : String} {opts : TransferOpts}
  {summary : TransferSummary} {after : Volume}

def idle : Machine := ⟨⟨"linux", "x86_64", 1, 0⟩, fun _ files => .ok (⟨[], .ok (.exited 0)⟩, files)⟩

end ControlPlane.Host
