import ControlPlane.Client.Remote
import ControlPlane.Proofs.Event.Reader
import ControlPlane.Proofs.Wire.RoundTrip
import ControlPlane.Server.Handler
-- What a client makes of the replies of the server, in whatever pieces their bodies come.
namespace ControlPlane

namespace Remote

def answerTo (words : Json.Words) (reply : Http.Reply) (c : Call) :
    Except TransportError c.Answer :=
  if 200 ≤ reply.status ∧ reply.status < 300 then answerOf words reply c
  else .error (.rejected c.method reply.status (errorMessage reply))

theorem call_replied {σ : Type} {x : Exchange σ} {c : Call} {state after : σ} {reply : Http.Reply}
    (replied : x.send (requestFor c.method (callBody c)) state = (.ok reply, after)) :
    (plane x).call c state = (answerTo x.words reply c, after) := by
  show call x c state = _
  unfold call answerTo
  rw [replied]
  dsimp only
  split <;> rfl

variable {words : Json.Words} {reply : Http.Reply}

theorem answerTo_success (success : reply.status = 200) (c : Call) :
    answerTo words reply c = answerOf words reply c := by
  simp [answerTo, success]

theorem readReply_bytes {α : Type} {method : Method} {read : Json.Value → Option α}
    {v : Json.Value} {a : α} (body : reply.body.flatten = v.bytes) (readable : read v = some a) :
    readReply words method read reply = .ok a := by
  rw [readReply, body, Json.ofBytes?_bytes, Option.bind_some, readable]

theorem answerOf_opening (request : Wire.OpenRequest) {r : Wire.OpenResponse}
    (body : reply.body.flatten = r.toJson.bytes) :
    answerOf words reply (.opening request) = .ok r :=
  readReply_bytes body r.ofJson?_toJson

theorem answerOf_exec (request : Wire.ExecRequest) {events : List Event}
    (body : reply.body.flatten = events.flatMap Event.encode) :
    answerOf words reply (.exec request) = .ok (events.map .ok) := by
  have brings : Brings (reply.body.map .piece) (events.flatMap Event.encode) := by
    refine ⟨?_, ?_⟩
    · intro detail member
      simp at member
    · rw [← body, List.flatMap_map]
      exact List.flatMap_id
  exact congrArg Except.ok (EventReader.items_events events brings)

theorem answerOf_transfer (direction : Direction) (request : Wire.TransferRequest)
    (body : reply.body.flatten = (Wire.Empty.toJson ⟨⟩).bytes) :
    answerOf words reply (.transfer direction request) = .ok () := by
  simp [answerOf, readReply_bytes body (Wire.Empty.ofJson?_toJson ⟨⟩), Except.map]

theorem answerOf_closing (request : Wire.CloseRequest)
    (body : reply.body.flatten = (Wire.Empty.toJson ⟨⟩).bytes) :
    answerOf words reply (.closing request) = .ok () := by
  simp [answerOf, readReply_bytes body (Wire.Empty.ofJson?_toJson ⟨⟩), Except.map]

theorem errorMessage_body {b : Wire.ErrorBody} (body : reply.body.flatten = b.toJson.bytes)
    (short : b.toJson.bytes.length ≤ errorLimit) : errorMessage reply = b.message := by
  have text : textOf? b.toJson.bytes = some (String.ofList b.toJson.print) := by
    rw [textOf?, Json.Value.bytes, Utf8.decode?_encode, Option.map_some]
  have read : Json.ofText? (String.ofList b.toJson.print) = some b.toJson := by
    rw [Json.ofText?, String.toList_ofList, Json.parse_print]
  simp only [errorMessage, body, List.take_of_length_le short, text, Option.getD_some, read,
    Option.bind_some, Wire.ErrorBody.ofJson?_toJson]

theorem answerTo_refusal (refused : 400 ≤ reply.status) (c : Call) :
    answerTo words reply c = .error (.rejected c.method reply.status (errorMessage reply)) := by
  apply if_neg
  rintro ⟨_, success⟩
  omega

theorem answerTo_refused (refused : 400 ≤ reply.status) (c : Call) :
    ∃ e, answerTo words reply c = .error e := ⟨_, answerTo_refusal refused c⟩

theorem answerTo_opened (request : Wire.OpenRequest) (r : Wire.OpenResponse) :
    answerTo words (Service.jsonReply r.toJson) (.opening request) = .ok r := by
  rw [answerTo_success rfl]
  exact answerOf_opening request List.flatten_singleton

end Remote

end ControlPlane
