import ControlPlane.Event
import ControlPlane.Proofs.Json.Line
import ControlPlane.Proofs.Json.Record
import ControlPlane.Proofs.Text.Base64
import ControlPlane.Proofs.Text.Utf8
-- An event is read back from its line, and the line holds no other newline than its last
-- octet.
namespace ControlPlane

namespace Event

theorem exitCode?_ofInt (code : Int32) : exitCode? (.ofInt code.toInt) = some code := by
  have low : -2147483648 ≤ code.toInt := code.le_toInt
  have high : code.toInt < 2147483648 := code.toInt_lt
  rw [exitCode?, Json.toInt?_ofInt]
  simp only [Option.bind_eq_bind, Option.bind_some]
  rw [if_pos ⟨low, high⟩, Int32.ofInt_toInt]

theorem readData_dataRecord (data : Bytes) : readData (dataRecord data) = some data := by
  have fields := Json.readRecord_record .lenient ["data"] ["data"]
    [("data", .ofString (String.ofList (Base64.encode data)))] rfl (by decide) (by decide)
  rw [readData, dataRecord, fields]
  simp [Json.Fields.required, Base64.decode?_encode]

theorem readFinish_record (code : Int32) (error : String) :
    readFinish (.record [("exit_code", .ofInt code.toInt), ("error", .ofString error)]) =
      some (.finish code error) := by
  have fields := Json.readRecord_record .lenient ["exit_code", "error"] ["exit_code", "error"]
    [("exit_code", .ofInt code.toInt), ("error", .ofString error)] rfl (by decide) (by decide)
  rw [readFinish, fields]
  simp [Json.Fields.required, Json.Fields.withDefault, exitCode?_ofInt, List.lookup_cons]

theorem ofJson?_toJson (e : Event) : ofJson? e.toJson = some e := by
  cases e with
  | start => rfl
  | stdout data => exact congrArg (Option.map Event.stdout) (readData_dataRecord data)
  | stderr data => exact congrArg (Option.map Event.stderr) (readData_dataRecord data)
  | finish code error => exact readFinish_record code error

theorem decode_print (words : Json.Words) (e : Event) :
    decode words e.toJson.print = .ok e := by
  rw [decode, Json.parse_print, Option.bind_some, ofJson?_toJson]

def front (e : Event) : Bytes := Utf8.encode e.toJson.print

theorem encode_eq (e : Event) : e.encode = e.front ++ [10] := by
  rw [encode, Utf8.encode_append]
  rfl

theorem encode_ne_nil (e : Event) : e.encode ≠ [] := by
  rw [encode_eq]
  exact List.append_ne_nil_of_right_ne_nil _ (List.cons_ne_nil _ _)

theorem newline_notMem_front (e : Event) : 10 ∉ e.front :=
  fun member => Json.newline_notMem_print _ (Utf8.mem_of_mem_encode (by decide) member)

end Event

end ControlPlane
