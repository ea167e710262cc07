import ControlPlane.Client.Handle
-- What an operation does to a handle and to the plane: nothing, one call for work, or the
-- closing call, which also closes the handle.
namespace ControlPlane

def Call.isWork : Call → Bool
  | .opening _ => false
  | .exec _ => true
  | .transfer .. => true
  | .closing _ => false

def Call.runtime? : Call → Option String
  | .opening _ => none
  | .exec r => some r.runtimeId
  | .transfer _ r => some r.runtimeId
  | .closing r => some r.runtimeId

namespace Handle

def sent (h : Handle) (call : Call) : Handle := { h with calls := h.calls ++ [call] }

def shut (h : Handle) : Handle :=
  { h with closed := true, calls := h.calls ++ [.closing ⟨h.id⟩] }

end Handle

inductive Acts {σ : Type} (p : Plane σ) (h : Handle) (state : σ) :
    Handle → σ → List Call → Prop where
  | still : Acts p h state h state []
  | work (call : Call) (isOpen : h.closed = false) (working : call.isWork = true)
      (named : call.runtime? = some h.id) :
      Acts p h state (h.sent call) (p.call call state).2 [call]
  | close (isOpen : h.closed = false) :
      Acts p h state h.shut (p.call (.closing ⟨h.id⟩) state).2 [.closing ⟨h.id⟩]

namespace Action

def check : Action → Except ConfigError Unit
  | .exec opts _ _ => opts.check
  | .capture opts => opts.check
  | .transfer _ src opts => opts.check src
  | .close => .ok ()

def refused : (a : Action) → ClientError → a.Answer
  | .exec _ stdout stderr, e => Client.notRun e stdout stderr
  | .capture _, e => .error e
  | .transfer .., e => .error e
  | .close, e => .error e

end Action

namespace Client

variable {σ : Type} (c : Client σ) (h : Handle) (state : σ)

theorem enter_open (isOpen : h.closed = false) (operation : Method) :
    h.enter operation = .ok () := by
  rw [Handle.enter, isOpen]
  rfl

theorem enter_closed (isClosed : h.closed = true) (operation : Method) :
    h.enter operation = .error (.closed h.id operation) := by
  rw [Handle.enter, isClosed]
  rfl

theorem perform_closed (isClosed : h.closed = true) (a : Action) :
    c.perform a h state = (a.refused (.closed h.id a.method), h, state) := by
  cases a with
  | exec opts stdout stderr =>
    simp only [perform, exec, enter_closed h isClosed]
    rfl
  | capture opts =>
    simp only [perform, capture, exec, enter_closed h isClosed]
    rfl
  | transfer direction src opts =>
    simp only [perform, transfer, enter_closed h isClosed]
    rfl
  | close =>
    simp only [perform, close, enter_closed h isClosed]
    rfl

theorem perform_invalid (isOpen : h.closed = false) (a : Action) {e : ConfigError}
    (invalid : a.check = .error e) :
    c.perform a h state = (a.refused (.configuration e), h, state) := by
  cases a with
  | exec opts stdout stderr =>
    simp only [perform, exec, enter_open h isOpen, show opts.check = .error e from invalid]
    rfl
  | capture opts =>
    simp only [perform, capture, exec, enter_open h isOpen, show opts.check = .error e from invalid]
    rfl
  | transfer direction src opts =>
    simp only [perform, transfer, enter_open h isOpen, show opts.check src = .error e from invalid]
    rfl
  | close => cases invalid

inductive Opens (p : Plane σ) (state : σ) : Except ClientError Handle × σ → Prop where
  | invalid (e : ConfigError) : Opens p state (.error (.configuration e), state)
  | failed (request : Wire.OpenRequest) (e : TransportError)
      (answered : (p.call (.opening request) state).1 = .error e) :
      Opens p state (.error (.transport e), (p.call (.opening request) state).2)
  | opened (request : Wire.OpenRequest) (runtime : Wire.OpenResponse)
      (answered : (p.call (.opening request) state).1 = .ok runtime) :
      Opens p state
        (.ok ⟨runtime, false, [.opening request]⟩, (p.call (.opening request) state).2)

theorem openRuntime_opens (config : RuntimeConfig) :
    Opens c.plane state (c.openRuntime config state) := by
  unfold openRuntime
  cases config.check with
  | error e => exact .invalid e
  | ok =>
    dsimp only
    have failed := @Opens.failed σ c.plane state ⟨c.buildId.text, .ofConfig config⟩
    have opened := @Opens.opened σ c.plane state ⟨c.buildId.text, .ofConfig config⟩
    generalize c.plane.call (.opening ⟨c.buildId.text, .ofConfig config⟩) state = answer
      at failed opened
    rcases answer with ⟨e | runtime, after⟩
    · exact failed e rfl
    · exact opened runtime rfl

theorem exec_sends (isOpen : h.closed = false) (opts : ExecOpts) (valid : opts.check = .ok ())
    (stdout stderr : Outlet) :
    (c.exec opts stdout stderr h state).2 =
      (h.sent (.exec ⟨h.id, opts⟩), (c.plane.call (.exec ⟨h.id, opts⟩) state).2) := by
  simp only [exec, enter_open h isOpen, valid]
  split
  · rename_i answer
    exact (congrArg Prod.snd answer).symm
  · rename_i answer
    exact (congrArg Prod.snd answer).symm

theorem transfer_sends (isOpen : h.closed = false) (direction : Direction) (src : String)
    (opts : TransferOpts) (valid : opts.check src = .ok ()) :
    (c.transfer direction src opts h state).2 =
      (h.sent (.transfer direction ⟨h.id, src, opts.dest, opts.excludes⟩),
        (c.plane.call (.transfer direction ⟨h.id, src, opts.dest, opts.excludes⟩) state).2) := by
  simp only [transfer, enter_open h isOpen, valid]
  split
  · rename_i answer
    exact (congrArg Prod.snd answer).symm
  · rename_i answer
    exact (congrArg Prod.snd answer).symm

theorem close_sends (isOpen : h.closed = false) :
    (c.close h state).2 = (h.shut, (c.plane.call (.closing ⟨h.id⟩) state).2) := by
  simp only [close, enter_open h isOpen]
  split
  · rename_i answer
    exact (congrArg Prod.snd answer).symm
  · rename_i answer
    exact (congrArg Prod.snd answer).symm

theorem perform_acts (a : Action) : ∃ sent,
    Acts c.plane h state (c.perform a h state).2.1 (c.perform a h state).2.2 sent := by
  cases isOpen : h.closed with
  | true =>
    rw [perform_closed c h state isOpen]
    exact ⟨[], .still⟩
  | false =>
    cases valid : a.check with
    | error e =>
      rw [perform_invalid c h state isOpen a valid]
      exact ⟨[], .still⟩
    | ok =>
      cases a with
      | exec opts stdout stderr =>
        rw [perform, exec_sends c h state isOpen opts valid]
        exact ⟨_, .work _ isOpen rfl rfl⟩
      | capture opts =>
        rw [perform, capture, exec_sends c h state isOpen opts valid]
        exact ⟨_, .work _ isOpen rfl rfl⟩
      | transfer direction src opts =>
        rw [perform, transfer_sends c h state isOpen direction src opts valid]
        exact ⟨_, .work _ isOpen rfl rfl⟩
      | close =>
        rw [perform, close_sends c h state isOpen]
        exact ⟨_, .close isOpen⟩

theorem closeOnce_acts : ∃ sent,
    Acts c.plane h state (c.closeOnce h state).2.1 (c.closeOnce h state).2.2 sent := by
  unfold closeOnce
  split
  · exact ⟨[], .still⟩
  · rename_i isOpen
    rw [close_sends c h state (Bool.eq_false_iff.mpr isOpen)]
    exact ⟨_, .close (Bool.eq_false_iff.mpr isOpen)⟩

theorem closeOnce_closed : (c.closeOnce h state).2.1.closed = true := by
  unfold closeOnce
  split
  · assumption
  · rename_i isOpen
    rw [close_sends c h state (Bool.eq_false_iff.mpr isOpen)]
    rfl

end Client

end ControlPlane
