import ControlPlane.Executor.Mock
import ControlPlane.Proofs.Http.Chunked
import ControlPlane.Proofs.Server.Replies
import ControlPlane.Proofs.Server.Site
-- A call through HTTP does what the operation does that is made on the server itself, and
-- its client is told the same.
namespace ControlPlane

abbrev Call.Outcome : Call → Type
  | .opening _ => Wire.OpenResponse
  | .exec _ => Run
  | .transfer .. => Unit
  | .closing _ => Unit

def Call.answer : (c : Call) → c.Outcome → c.Answer
  | .opening _, r => r
  | .exec _, run => run.stream.map .ok
  | .transfer .., _ => ()
  | .closing _, _ => ()

-- What lies between a client and its server. Headers may be added to a request, and the
-- body of a reply may be cut anew.
structure Carrier where
  request : Http.Request → Http.Request
  reply : Http.Reply → Http.Reply
  verb : ∀ r, (request r).verb = r.verb
  target : ∀ r, (request r).target = r.target
  version : ∀ r, (request r).header? protocolHeader = r.header? protocolHeader
  requestBody : ∀ r, (request r).body = r.body
  status : ∀ r, (reply r).status = r.status
  replyBody : ∀ r, (reply r).body.flatten = r.body.flatten

namespace Service

variable {β : Type} (svc : Service β)

def perform (fresh : RuntimeId) : (c : Call) → Registry β → Except ApiError c.Outcome × Registry β
  | .opening request => svc.openRuntime fresh request
  | .exec request => svc.exec request
  | .transfer direction request => svc.transfer direction request
  | .closing request => svc.close request

def replyTo : (c : Call) → c.Outcome → Http.Reply
  | .opening _, r => jsonReply r.toJson
  | .exec _, run => eventsReply run
  | .transfer .., u => emptyReply u
  | .closing _, u => emptyReply u

theorem handle_carried (k : Carrier) (fresh : RuntimeId) (r : Http.Request) (s : Registry β) :
    svc.handle fresh (k.request r) s = svc.handle fresh r s := by
  simp only [handle, checkVersion, k.verb, k.target, k.version, k.requestBody]

theorem callWith_bytes {α ρ : Type} {method : Method} {read : Json.Value → Option α}
    {v : Json.Value} {a : α} (readable : read v = some a)
    (call : α → Registry β → Except ApiError ρ × Registry β) (shown : ρ → Http.Reply)
    (s : Registry β) :
    svc.callWith method read v.bytes call shown s = (replyWith shown (call a s).1, (call a s).2) := by
  rw [callWith, readBody_bytes, readable]

theorem handle_call (fresh : RuntimeId) (c : Call) (s : Registry β) :
    svc.handle fresh (Remote.requestFor c.method (Remote.callBody c)) s =
      (replyWith (replyTo c) (svc.perform fresh c s).1, (svc.perform fresh c s).2) := by
  rw [handle_requestFor]
  cases c with
  | opening request =>
    simp only [Call.method, Remote.callBody, callMethod, svc.callWith_bytes request.ofJson?_toJson]
    rfl
  | exec request =>
    simp only [Call.method, Remote.callBody, callMethod, svc.callWith_bytes request.ofJson?_toJson]
    rfl
  | transfer direction request =>
    cases direction with
    | importing =>
      simp only [Call.method, Direction.method, Remote.callBody, callMethod,
        svc.callWith_bytes request.ofJson?_toJson]
      rfl
    | exporting =>
      simp only [Call.method, Direction.method, Remote.callBody, callMethod,
        svc.callWith_bytes request.ofJson?_toJson]
      rfl
  | closing request =>
    simp only [Call.method, Remote.callBody, callMethod, svc.callWith_bytes request.ofJson?_toJson]
    rfl

theorem replyTo_status (c : Call) (outcome : c.Outcome) : (replyTo c outcome).status = 200 := by
  cases c <;> rfl

end Service

theorem EventStream.body?_eventsReply (run : Run) :
    body? (write none run.stream).bytes = some (Service.eventsReply run).body.flatten := by
  rw [body?_write, List.flatMap_def]
  rfl

namespace Carrier

variable {β : Type}

def exchange (k : Carrier) (svc : Service β) (fresh : RuntimeId) (address : String) :
    Exchange (Registry β) where
  address := address
  words := svc.words
  send := fun request s =>
    let served := svc.handle fresh (k.request request) s
    (.ok (k.reply served.1), served.2)

-- How the outcome of an operation arrives. A refusal keeps its status, and its message too
-- unless the body is longer than what a client looks at.
def Arrives (c : Call) : Except ApiError c.Outcome → Except TransportError c.Answer → Prop
  | .ok outcome, result => result = .ok (c.answer outcome)
  | .error e, result => ∃ message, result = .error (.rejected c.method e.status message) ∧
      ((Wire.ErrorBody.toJson ⟨e.message⟩).bytes.length ≤ 65536 → message = e.message)

theorem answer_arrives (k : Carrier) (words : Json.Words) (c : Call) (outcome : c.Outcome) :
    Remote.answerTo words (k.reply (Service.replyTo c outcome)) c = .ok (c.answer outcome) := by
  have status := k.status (Service.replyTo c outcome)
  rw [Service.replyTo_status] at status
  rw [Remote.answerTo_success status]
  have body := k.replyBody (Service.replyTo c outcome)
  cases c with
  | opening request =>
    exact Remote.answerOf_opening request (body.trans List.flatten_singleton)
  | exec request =>
    exact Remote.answerOf_exec request (body.trans (List.flatMap_def ..).symm)
  | transfer direction request =>
    exact Remote.answerOf_transfer direction request (body.trans List.flatten_singleton)
  | closing request =>
    exact Remote.answerOf_closing request (body.trans List.flatten_singleton)

theorem refusal_arrives (k : Carrier) (words : Json.Words) (c : Call) (e : ApiError) :
    Arrives c (.error e) (Remote.answerTo words (k.reply (Service.errorReply e)) c) := by
  have status : (k.reply (Service.errorReply e)).status = e.status := k.status _
  have body := (k.replyBody (Service.errorReply e)).trans List.flatten_singleton
  have refused : 400 ≤ (k.reply (Service.errorReply e)).status := status ▸ e.status_refuses
  refine ⟨_, by rw [Remote.answerTo_refusal refused, status], ?_⟩
  intro short
  exact Remote.errorMessage_body body short

-- A call leaves the server as the operation leaves it, and its outcome arrives. What is
-- written for a run is what the reply to it stands for.
theorem call_arrives (k : Carrier) (svc : Service β) (fresh : RuntimeId) (address : String)
    (c : Call) (s : Registry β) :
    ((Remote.plane (k.exchange svc fresh address)).call c s).2 = (svc.perform fresh c s).2 ∧
      Arrives c (svc.perform fresh c s).1
        ((Remote.plane (k.exchange svc fresh address)).call c s).1 ∧
      ∀ run : Run, EventStream.body? (EventStream.write none run.stream).bytes =
        some (Service.eventsReply run).body.flatten := by
  have sent : (k.exchange svc fresh address).send
      (Remote.requestFor c.method (Remote.callBody c)) s =
      (.ok (k.reply (Service.replyWith (Service.replyTo c) (svc.perform fresh c s).1)),
        (svc.perform fresh c s).2) := by
    simp only [exchange, Service.handle_carried, Service.handle_call]
  rw [Remote.call_replied sent]
  refine ⟨rfl, ?_, EventStream.body?_eventsReply⟩
  cases (svc.perform fresh c s).1 with
  | ok outcome => exact answer_arrives k svc.words c outcome
  | error e => exact refusal_arrives k svc.words c e

def octetwise : Carrier where
  request r := { r with headers := r.headers ++ [("Host", "localhost")] }
  reply r := { r with body := r.body.flatten.map ([·]) }
  verb _ := rfl
  target _ := rfl
  version r := by
    have other : Http.sameName "Host" protocolHeader = false := by decide
    simp [Http.Request.header?, List.find?_append, other]
  requestBody _ := rfl
  status _ := rfl
  replyBody r := by
    show (r.body.flatten.map ([·])).flatten = r.body.flatten
    rw [← List.flatMap_def, List.flatMap_singleton']

theorem call_arrives_octetwise : Arrives (.closing ⟨"rt-9"⟩) (.error (.unknownRuntime "rt-9"))
    ((Remote.plane (octetwise.exchange ⟨⟨"build"⟩, Mock.backend, Json.wordless⟩ ⟨"rt-1"⟩
      "http://localhost")).call (.closing ⟨"rt-9"⟩) (.start [])).1 :=
  (call_arrives octetwise ⟨⟨"build"⟩, Mock.backend, Json.wordless⟩ ⟨"rt-1"⟩
    "http://localhost" (.closing ⟨"rt-9"⟩) (.start [])).2.1

end Carrier

end ControlPlane
