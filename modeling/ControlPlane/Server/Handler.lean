import ControlPlane.Http.Message
import ControlPlane.Server.Registry
import ControlPlane.Text.Blank
-- Answering requests. The path is looked at first, then the verb, the version of the
-- protocol and the body, and only then does the call take place.
namespace ControlPlane

def decimal? (text : String) : Option Nat :=
  let digits := match text.toList with
    | '+' :: rest => rest
    | cs => cs
  if digits.isEmpty || !digits.all Char.isDigit then none
  else some (Nat.ofDigitChars 10 digits 0)

namespace Service

variable {β : Type}

def errorReply (e : ApiError) : Http.Reply :=
  ⟨e.status, Http.jsonType, [(Wire.ErrorBody.toJson ⟨e.message⟩).bytes]⟩

def jsonReply (v : Json.Value) : Http.Reply := ⟨200, Http.jsonType, [v.bytes]⟩

def eventsReply (run : Run) : Http.Reply := ⟨200, Http.linesType, run.stream.map Event.encode⟩

def checkVersion (request : Http.Request) : Except ApiError Unit :=
  match request.header? protocolHeader with
  | none => .error .noVersion
  | some value =>
    let value := trim value
    if decimal? value = some protocolVersion then .ok () else .error (.wrongVersion value)

def readBody {α : Type} (svc : Service β) (method : Method) (read : Json.Value → Option α)
    (body : Bytes) : Except ApiError α :=
  match (Json.ofBytes? body).bind read with
  | some a => .ok a
  | none => .error (.unreadable method (svc.words (method.name ++ " request") body))

def replyWith {α : Type} (shown : α → Http.Reply) : Except ApiError α → Http.Reply
  | .ok a => shown a
  | .error e => errorReply e

def emptyReply (_ : Unit) : Http.Reply := jsonReply (Wire.Empty.toJson ⟨⟩)

def callWith {α ρ : Type} (svc : Service β) (method : Method) (read : Json.Value → Option α)
    (body : Bytes) (call : α → Registry β → Except ApiError ρ × Registry β)
    (shown : ρ → Http.Reply) (s : Registry β) : Http.Reply × Registry β :=
  match svc.readBody method read body with
  | .error e => (errorReply e, s)
  | .ok a =>
    let answered := call a s
    (replyWith shown answered.1, answered.2)

def callMethod (svc : Service β) (fresh : RuntimeId) (body : Bytes) :
    Method → Registry β → Http.Reply × Registry β
  | .opening =>
    svc.callWith .opening Wire.OpenRequest.ofJson? body (svc.openRuntime fresh)
      fun r => jsonReply r.toJson
  | .exec => svc.callWith .exec Wire.ExecRequest.ofJson? body svc.exec eventsReply
  | .importing =>
    svc.callWith .importing Wire.TransferRequest.ofJson? body (svc.transfer .importing) emptyReply
  | .exporting =>
    svc.callWith .exporting Wire.TransferRequest.ofJson? body (svc.transfer .exporting) emptyReply
  | .closing => svc.callWith .closing Wire.CloseRequest.ofJson? body svc.close emptyReply

def handle (svc : Service β) (fresh : RuntimeId) (request : Http.Request) (s : Registry β) :
    Http.Reply × Registry β :=
  match Method.ofTarget? request.target with
  | none => (errorReply (.noEndpoint request.target), s)
  | some method =>
    if request.verb ≠ "POST" then (errorReply .wrongVerb, s)
    else
      match checkVersion request with
      | .error e => (errorReply e, s)
      | .ok () =>
        match request.body with
        | none => (errorReply .unread, s)
        | some body => svc.callMethod fresh body method s

end Service

end ControlPlane
