import ControlPlane.Client.Error
import ControlPlane.Client.Sink
import ControlPlane.EventReader
-- Taking the output of a command from its stream of events. What an event brings is
-- written before the next one is pulled.
namespace ControlPlane

structure Outcome where
  code : Int32
  stdoutBytes : Nat
  stderrBytes : Nat
deriving DecidableEq

-- Where the taking stands: whether the start was seen, and the size of the data so far.
structure Demux where
  started : Bool
  stdoutBytes : Nat
  stderrBytes : Nat
  stdout : Outlet
  stderr : Outlet

-- How it ends. For each element that was pulled, `pulls` has the sizes of what the two
-- outlets held at that time.
structure Demuxed where
  result : Except ClientError Outcome
  stdout : Outlet
  stderr : Outlet
  pulls : List (Nat × Nat)

namespace Demux

def start (stdout stderr : Outlet) : Demux := ⟨false, 0, 0, stdout, stderr⟩

def sizes (d : Demux) : Nat × Nat := (d.stdout.held.length, d.stderr.held.length)

def stop (d : Demux) (error : ClientError) (pulls : List (Nat × Nat)) : Demuxed :=
  ⟨.error error, d.stdout, d.stderr, pulls⟩

def faultError : StreamFault → ClientError
  | .broken detail => .remote ("exec stream aborted: " ++ detail)
  | .malformed detail => .protocol (.malformed detail)

def itemKind : Item → String
  | .ok event => event.kind
  | .error _ => "undecodable"

def flush (d : Demux) : Except String Unit :=
  match d.stdout.flush with
  | .ok () => d.stderr.flush
  | failed => failed

-- The result of a stream that ends as it should. A failure to run the command wins over
-- its exit code.
def conclude (d : Demux) (code : Int32) (error : String) : Except ClientError Outcome :=
  match d.flush with
  | .error detail => .error (.io detail)
  | .ok () =>
    if error ≠ "" then .error (.remote error)
    else if code ≠ 0 then .error (.exit code)
    else .ok ⟨code, d.stdoutBytes, d.stderrBytes⟩

def finish (d : Demux) (code : Int32) (error : String) : List Item → Demuxed
  | [] => ⟨d.conclude code error, d.stdout, d.stderr, [d.sizes]⟩
  | extra :: _ => d.stop (.protocol (.afterEnd (itemKind extra))) [d.sizes, d.sizes]

def pulled (sizes : Nat × Nat) (rest : Demuxed) : Demuxed :=
  { rest with pulls := sizes :: rest.pulls }

def run (d : Demux) : List Item → Demuxed
  | [] => d.stop (.protocol .noEnd) []
  | .error fault :: _ => d.stop (faultError fault) [d.sizes]
  | .ok .start :: rest =>
    if d.started then d.stop (.protocol .secondStart) [d.sizes]
    else pulled d.sizes (run { d with started := true } rest)
  | .ok (.stdout data) :: rest =>
    match d.stdout.writeAll data with
    | (.error detail, stdout) => { d with stdout := stdout }.stop (.io detail) [d.sizes]
    | (.ok (), stdout) =>
      pulled d.sizes
        (run { d with stdout := stdout, stdoutBytes := d.stdoutBytes + data.length } rest)
  | .ok (.stderr data) :: rest =>
    match d.stderr.writeAll data with
    | (.error detail, stderr) => { d with stderr := stderr }.stop (.io detail) [d.sizes]
    | (.ok (), stderr) =>
      pulled d.sizes
        (run { d with stderr := stderr, stderrBytes := d.stderrBytes + data.length } rest)
  | .ok (.finish code error) :: rest => d.finish code error rest

end Demux

def demux (items : List Item) (stdout stderr : Outlet) : Demuxed :=
  (Demux.start stdout stderr).run items

structure Captured where
  code : Int32
  stdout : Bytes
  stderr : Bytes
deriving DecidableEq

namespace Captured

def success (c : Captured) : Bool := c.code == 0

-- An exit code other than zero is part of the value. All other failures stay failures.
def ofDemuxed (d : Demuxed) : Except ClientError Captured :=
  match d.result with
  | .ok outcome => .ok ⟨outcome.code, d.stdout.held, d.stderr.held⟩
  | .error (.exit code) => .ok ⟨code, d.stdout.held, d.stderr.held⟩
  | .error e => .error e

end Captured

end ControlPlane
