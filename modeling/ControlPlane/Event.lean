import ControlPlane.Base64
import ControlPlane.Json.Printer
import ControlPlane.Json.Reader
import ControlPlane.Json.Record
import ControlPlane.Text.Blank
-- The elements of a command's output stream, one JSON document a line. A text in the last
-- one means that the command could not be run.
namespace ControlPlane

inductive Event where
  | start
  | stdout (data : Bytes)
  | stderr (data : Bytes)
  | finish (code : Int32) (error : String)
deriving DecidableEq

inductive StreamFault where
  | broken (detail : String)
  | malformed (detail : String)
deriving DecidableEq

def StreamFault.message : StreamFault → String
  | .broken detail => "stream I/O error: " ++ detail
  | .malformed detail => "malformed message: " ++ detail

namespace Event

def exited (code : Int32) : Event := .finish code ""

def failed (error : String) : Event := .finish (-1) error

def kind : Event → String
  | .start => "start"
  | .stdout _ => "stdout"
  | .stderr _ => "stderr"
  | .finish .. => "end"

def isFinish : Event → Bool
  | .finish .. => true
  | _ => false

def dataRecord (data : Bytes) : Json.Value :=
  .record [("data", .ofString (String.ofList (Base64.encode data)))]

def toJson : Event → Json.Value
  | .start => .ofString "start"
  | .stdout data => .record [("stdout", dataRecord data)]
  | .stderr data => .record [("stderr", dataRecord data)]
  | .finish code error =>
    .record [("end", .record [("exit_code", .ofInt code.toInt), ("error", .ofString error)])]

def readData (v : Json.Value) : Option Bytes := do
  let fields ← Json.readRecord .lenient ["data"] v
  let text ← fields.required "data" Json.text?
  Base64.decode? text.toList

def exitCode? (v : Json.Value) : Option Int32 := do
  let i ← Json.int? v
  if -2147483648 ≤ i ∧ i < 2147483648 then some (Int32.ofInt i) else none

def readFinish (v : Json.Value) : Option Event := do
  let fields ← Json.readRecord .lenient ["exit_code", "error"] v
  let code ← fields.required "exit_code" exitCode?
  let error ← fields.withDefault "error" "" Json.text?
  some (.finish code error)

def ofMember : String → Json.Value → Option Event
  | "start", .null => some .start
  | "stdout", v => (readData v).map .stdout
  | "stderr", v => (readData v).map .stderr
  | "end", v => readFinish v
  | _, _ => none

def ofJson? (v : Json.Value) : Option Event :=
  match v with
  | .string t => if t = some "start" then some .start else none
  | _ => (Json.onlyMember? v).bind fun m => ofMember m.1 m.2

def encode (e : Event) : Bytes := Utf8.encode (e.toJson.print ++ ['\n'])

def unreadable (words : Json.Words) (line : List Char) : StreamFault :=
  .malformed ("invalid exec event: " ++ words "exec event" (Utf8.encode line))

def decode (words : Json.Words) (line : List Char) : Except StreamFault Event :=
  match (Json.parse line).bind ofJson? with
  | some e => .ok e
  | none => .error (unreadable words line)

end Event

end ControlPlane
