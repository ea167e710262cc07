import ControlPlane.Transfer.Plan
import ControlPlane.Volume.Edit
-- Carrying out a plan, entry by entry. When an entry fails, what the ones before it did
-- stays, and so do the directories made for it.
namespace ControlPlane

structure TransferSummary where
  files : Nat
  directories : Nat
  bytes : Nat
deriving DecidableEq

namespace TransferSummary

def zero : TransferSummary := ⟨0, 0, 0⟩

def withDirectory (s : TransferSummary) : TransferSummary :=
  { s with directories := s.directories + 1 }

def withFile (s : TransferSummary) (size : Nat) : TransferSummary :=
  { s with files := s.files + 1, bytes := s.bytes + size }

end TransferSummary

namespace Transfer

-- A file with all directories above it. Its mode is copied along. Yields the number of
-- octets.
def copyFile (source target : Volume) (src dest : String) : Except Fault Nat × Volume :=
  match Volume.pathSteps dest with
  | .error f => (.error f, target)
  | .ok steps =>
    match target.makeDirs (Volume.stepsAbove steps) with
    | (.error f, target) => (.error f, target)
    | (.ok (), target) =>
      match (Volume.pathSteps src).bind source.readFile with
      | .error f => (.error f, target)
      | .ok content =>
        match target.writeFile steps content with
        | .error f => (.error f, target)
        | .ok target => (.ok content.octets.length, target)

-- A directory with all those above it. A slash at the end makes no difference.
def makeDirectory (target : Volume) (dest : String) : Except Fault Unit × Volume :=
  match Volume.pathSteps dest with
  | .error f => (.error f, target)
  | .ok _ => target.makeDirs (partsOf (bytesOf dest))

def copyEntries (source : Volume) (done : TransferSummary) (target : Volume) :
    List TransferEntry → Except Fault TransferSummary × Volume
  | [] => (.ok done, target)
  | entry :: rest =>
    if entry.isDir then
      match makeDirectory target entry.dest with
      | (.error f, target) => (.error f, target)
      | (.ok (), target) => copyEntries source done.withDirectory target rest
    else
      match copyFile source target entry.src entry.dest with
      | (.error f, target) => (.error f, target)
      | (.ok size, target) => copyEntries source (done.withFile size) target rest

def run (source target : Volume) (src : String) (opts : TransferOpts) :
    Except ExecutorError TransferSummary × Volume :=
  match plan source src opts with
  | .error e => (.error e, target)
  | .ok entries =>
    let copied := copyEntries source .zero target entries
    (copied.1.mapError ioError, copied.2)

end Transfer

end ControlPlane
