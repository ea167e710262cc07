import ControlPlane.Client.Plane
import ControlPlane.Http.Message
import ControlPlane.Text.Blank
-- A control plane behind HTTP. Each call is one request. The reply is the answer, or says
-- why there is none.
namespace ControlPlane

-- The way to a server: a request is replied to, unless the server cannot be reached.
structure Exchange (σ : Type) where
  address : String
  words : Json.Words
  send : Http.Request → σ → Except String Http.Reply × σ

namespace Remote

def errorLimit : Nat := 65536

def requestFor (method : Method) (body : Json.Value) : Http.Request :=
  ⟨"POST", method.path,
    [("Content-Type", Http.jsonType), (protocolHeader, Nat.repr protocolVersion)], some body.bytes⟩

def callBody : Call → Json.Value
  | .opening r => r.toJson
  | .exec r => r.toJson
  | .transfer _ r => r.toJson
  | .closing r => r.toJson

-- The message of an error reply: what its body says, or else the body itself. Only the
-- front of a long body is looked at, and a body that is no text says nothing.
def errorMessage (reply : Http.Reply) : String :=
  let text := (textOf? (reply.body.flatten.take errorLimit)).getD ""
  match (Json.ofText? text).bind Wire.ErrorBody.ofJson? with
  | some body => body.message
  | none => trim text

def readReply {α : Type} (words : Json.Words) (method : Method)
    (read : Json.Value → Option α) (reply : Http.Reply) : Except TransportError α :=
  match (Json.ofBytes? reply.body.flatten).bind read with
  | some a => .ok a
  | none =>
    .error (.unreadable method (words (method.name ++ " response") reply.body.flatten))

def answerOf (words : Json.Words) (reply : Http.Reply) :
    (c : Call) → Except TransportError c.Answer
  | .opening _ => readReply words .opening Wire.OpenResponse.ofJson? reply
  | .exec _ => .ok (EventReader.items words (reply.body.map Read.piece))
  | .transfer direction _ =>
    (readReply words direction.method Wire.Empty.ofJson? reply).map fun _ => ()
  | .closing _ => (readReply words .closing Wire.Empty.ofJson? reply).map fun _ => ()

def call {σ : Type} (x : Exchange σ) (c : Call) (state : σ) :
    Except TransportError c.Answer × σ :=
  match x.send (requestFor c.method (callBody c)) state with
  | (.error detail, state) => (.error (.unreachable x.address detail), state)
  | (.ok reply, state) =>
    if 200 ≤ reply.status ∧ reply.status < 300 then (answerOf x.words reply c, state)
    else (.error (.rejected c.method reply.status (errorMessage reply)), state)

def plane {σ : Type} (x : Exchange σ) : Plane σ := ⟨call x⟩

end Remote

end ControlPlane
