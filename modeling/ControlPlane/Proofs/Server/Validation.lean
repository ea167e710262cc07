import ControlPlane.Proofs.Client.Handle
import ControlPlane.Proofs.Executor.Arguments
import ControlPlane.Proofs.Server.Transparency
import ControlPlane.Proofs.Wire.Config
-- What a client has checked before it sends a request is all that a server checks of the
-- arguments in it.
namespace ControlPlane

def Call.Valid : Call → Prop
  | .opening request => ∃ config, request.opts.toConfig = .ok config
  | .exec request => request.opts.check = .ok ()
  | .transfer _ request => request.opts.check request.src = .ok ()
  | .closing _ => True

-- What a valid call can be answered with: success, or a refusal because of another build, an
-- unknown runtime or a failure of the server.
def Answerable (status : Nat) : Prop := status = 200 ∨ status = 403 ∨ status = 404 ∨ status = 500

theorem ApiError.answerable {error : ExecutorError} (unblamed : ∀ e, error ≠ .config e) :
    Answerable (executor error).status := by
  cases error with
  | config e => exact absurd rfl (unblamed e)
  | unknownRuntime id => exact .inr (.inr (.inl rfl))
  | io | backendUnavailable | spawnFailed | transfer | sinkClosed => exact .inr (.inr (.inr rfl))

namespace Service

variable {β : Type} {svc : Service β} {call : Call}

theorem refusal_answerable (trusts : svc.backend.Trusts) (valid : call.Valid) (fresh : RuntimeId)
    (s : Registry β) {e : ApiError} (refused : (svc.perform fresh call s).1 = .error e) :
    Answerable e.status := by
  have blameless : ∀ {α : Type} {result : Except ExecutorError α} {error : ExecutorError},
      Unblamed result → result = .error error → Answerable (ApiError.executor error).status := by
    rintro α result error unblamed rfl
    exact ApiError.answerable fun e same => unblamed e (congrArg Except.error same)
  cases call with
  | opening request =>
    obtain ⟨config, read⟩ := valid
    simp only [perform, openRuntime, read] at refused
    split at refused
    · cases refused
      exact .inr (.inl rfl)
    · split at refused
      · split at refused
        · rename_i failed
          cases refused
          exact blameless (trusts.openRuntime fresh config s.state) (congrArg Prod.fst failed)
        · cases refused
      · cases refused
        exact ApiError.answerable nofun
  | exec request =>
    have checked : request.opts.check = .ok () := valid
    by_cases isOpen : s.isOpen request.runtimeId = true
    · simp only [perform, exec, accept, if_pos isOpen, checked] at refused
      cases refused
    · simp only [perform, exec, accept, if_neg isOpen] at refused
      cases refused
      exact ApiError.answerable nofun
  | transfer direction request =>
    simp only [perform, transfer] at refused
    split at refused
    · split at refused
      · rename_i failed
        cases refused
        exact blameless (trusts.transfer direction _ request.src request.opts s.state valid)
          (congrArg Prod.fst failed)
      · cases refused
    · cases refused
      exact ApiError.answerable nofun
  | closing request =>
    simp only [perform, close] at refused
    split at refused
    · split at refused
      · rename_i failed
        cases refused
        exact blameless (trusts.close _ s.state) (congrArg Prod.fst failed)
      · cases refused
    · cases refused
      exact ApiError.answerable nofun

end Service

def Exchange.watched {σ : Type} (x : Exchange σ) : Exchange (σ × List Nat) where
  address := x.address
  words := x.words
  send := fun request state =>
    let answer := x.send request state.1
    (answer.1, answer.2,
      match answer.1 with
      | .ok reply => state.2 ++ [reply.status]
      | .error _ => state.2)

namespace Carrier

variable {β : Type} {svc : Service β} {call : Call}

theorem call_answerable (k : Carrier) (trusts : svc.backend.Trusts) (valid : call.Valid)
    (fresh : RuntimeId) (address : String) (s : Registry β) (seen : List Nat) :
    ∃ status, Answerable status ∧
      ((Remote.plane (k.exchange svc fresh address).watched).call call (s, seen)).2.2 =
        seen ++ [status] := by
  have sent : (k.exchange svc fresh address).watched.send
      (Remote.requestFor call.method (Remote.callBody call)) (s, seen) =
      (.ok (k.reply (Service.replyWith (Service.replyTo call) (svc.perform fresh call s).1)),
        (svc.perform fresh call s).2,
        seen ++ [(Service.replyWith (Service.replyTo call) (svc.perform fresh call s).1).status]) := by
    simp only [Exchange.watched, exchange, Service.handle_carried, Service.handle_call, k.status]
  rw [Remote.call_replied sent]
  refine ⟨_, ?_, rfl⟩
  cases done : (svc.perform fresh call s).1 with
  | ok outcome => exact .inl (Service.replyTo_status call outcome)
  | error e => exact Service.refusal_answerable trusts valid fresh s done

end Carrier

namespace Client

variable {σ : Type} (c : Client σ) (state : σ)

theorem openRuntime_sends {config : RuntimeConfig} (valid : config.check = .ok ()) :
    (c.openRuntime config state).2 =
      (c.plane.call (.opening ⟨c.buildId.text, .ofConfig config⟩) state).2 := by
  simp only [openRuntime, valid]
  split
  · rename_i answer
    exact (congrArg Prod.snd answer).symm
  · rename_i answer
    exact (congrArg Prod.snd answer).symm

theorem openRuntime_invalid {config : RuntimeConfig} {e : ConfigError}
    (invalid : config.check = .error e) :
    c.openRuntime config state = (.error (.configuration e), state) := by
  simp only [openRuntime, invalid]

theorem perform_sends {h : Handle} {a : Action} (isOpen : h.closed = false)
    (valid : a.check = .ok ()) :
    ∃ call : Call, call.Valid ∧ (c.perform a h state).2.2 = (c.plane.call call state).2 := by
  cases a with
  | exec opts stdout stderr =>
    exact ⟨.exec ⟨h.id, opts⟩, valid,
      congrArg Prod.snd (c.exec_sends h state isOpen opts valid stdout stderr)⟩
  | capture opts =>
    exact ⟨.exec ⟨h.id, opts⟩, valid, congrArg Prod.snd (c.exec_sends h state isOpen opts valid _ _)⟩
  | transfer direction src opts =>
    exact ⟨.transfer direction ⟨h.id, src, opts.dest, opts.excludes⟩, valid,
      congrArg Prod.snd (c.transfer_sends h state isOpen direction src opts valid)⟩
  | close => exact ⟨.closing ⟨h.id⟩, trivial, congrArg Prod.snd (c.close_sends h state isOpen)⟩

end Client

def watchedClient (b : Installed) (own served : BuildId) (words : Json.Words) (k : Carrier)
    (fresh : RuntimeId) (address : String) : Client (Registry b.State × List Nat) :=
  ⟨own, Remote.plane (k.exchange ⟨served, b.backend, words⟩ fresh address).watched⟩

theorem call_watchedClient (b : Installed) (own served : BuildId) (words : Json.Words)
    (k : Carrier) (fresh : RuntimeId) (address : String) (s : Registry b.State) {call : Call}
    (valid : call.Valid) :
    ∃ status, Answerable status ∧
      ((watchedClient b own served words k fresh address).plane.call call (s, [])).2.2 = [status] :=
  @Carrier.call_answerable _ ⟨served, b.backend, words⟩ call k b.trusts valid fresh address s []

-- What comes of something that a client does: if it passes the checks of the client, one
-- request whose reply does not blame it, and else no request.
def Told (passes : Prop) (statuses : List Nat) : Prop :=
  (passes → ∃ status, Answerable status ∧ statuses = [status]) ∧ (¬ passes → statuses = [])

-- Whatever a client asks of a server, and whatever was asked before, what the client has
-- checked is never refused as a bad request or as a request of the wrong kind.
theorem checked_once (b : Installed) (own served : BuildId) (words : Json.Words) (k : Carrier)
    (fresh : RuntimeId) (address : String) (s : Registry b.State) :
    (∀ config, Told (config.check = .ok ())
      ((watchedClient b own served words k fresh address).openRuntime config (s, [])).2.2) ∧
    ∀ a h, Told (h.closed = false ∧ a.check = .ok ())
      ((watchedClient b own served words k fresh address).perform a h (s, [])).2.2.2 := by
  refine ⟨fun config => ⟨fun valid => ?_, fun invalid => ?_⟩,
    fun a h => ⟨fun ⟨isOpen, valid⟩ => ?_, fun refused => ?_⟩⟩
  · rw [Client.openRuntime_sends _ _ valid]
    exact call_watchedClient b own served words k fresh address s
      ⟨config, Wire.OpenOpts.toConfig_ofConfig valid⟩
  · cases failed : config.check with
    | error e => rw [Client.openRuntime_invalid _ _ failed]
    | ok => exact absurd failed invalid
  · obtain ⟨call, passes, sent⟩ := Client.perform_sends
      (watchedClient b own served words k fresh address) (s, []) isOpen valid
    rw [sent]
    exact call_watchedClient b own served words k fresh address s passes
  · cases isOpen : h.closed with
    | true => rw [Client.perform_closed _ h _ isOpen]
    | false =>
      cases failed : a.check with
      | error e => rw [Client.perform_invalid _ h _ isOpen a failed]
      | ok => exact absurd ⟨isOpen, failed⟩ refused

theorem checked_once_foreign :
    (∃ status, Answerable status ∧ ((watchedClient .mock ⟨"ours"⟩ ⟨"theirs"⟩ Json.wordless .octetwise
      ⟨"rt-1"⟩ "http://localhost").openRuntime (.ofBackend .host) (.start [], [])).2.2 = [status]) ∧
    ((watchedClient .mock ⟨"ours"⟩ ⟨"theirs"⟩ Json.wordless .octetwise
      ⟨"rt-1"⟩ "http://localhost").openRuntime (.ofBackend .host) (.start [], [])).2.2 = [403] :=
  ⟨((checked_once .mock ⟨"ours"⟩ ⟨"theirs"⟩ Json.wordless .octetwise ⟨"rt-1"⟩
    "http://localhost" (.start [])).1 (.ofBackend .host)).1 rfl, by decide +kernel⟩

end ControlPlane
