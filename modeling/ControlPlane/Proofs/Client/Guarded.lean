import ControlPlane.Client.Guarded
import ControlPlane.Proofs.Client.Lifecycle
-- Work on a runtime that is opened for it: its closing is sent once, whatever the work
-- does and however it ends, and a failure of the work is reported before one of the
-- closing.
namespace ControlPlane

theorem Acts.id {σ : Type} {p : Plane σ} {h after : Handle} {state next : σ} {sent : List Call}
    (acts : Acts p h state after next sent) : after.id = h.id := by
  cases acts with
  | still => rfl
  | work => rfl
  | close => rfl

-- What is reported of work that has left a handle and a plane behind. The plane is asked to
-- close the runtime unless the work has done so, and its failure counts only behind a value.
inductive Reported {σ α : Type} (p : Plane σ) : Ending α × Handle × σ → Ending α → Prop where
  | panic (h : Handle) (state : σ) : Reported p (.panic, h, state) .panic
  | failure (e : ClientError) (h : Handle) (state : σ) :
      Reported p (.failure e, h, state) (.failure e)
  | shut (a : α) (h : Handle) (state : σ) (isClosed : h.closed = true) :
      Reported p (.value a, h, state) (.value a)
  | closed (a : α) (h : Handle) (state : σ) (isOpen : h.closed = false)
      (answered : (p.call (.closing ⟨h.id⟩) state).1 = .ok ()) :
      Reported p (.value a, h, state) (.value a)
  | unclosed (a : α) (h : Handle) (state : σ) (isOpen : h.closed = false) (e : TransportError)
      (answered : (p.call (.closing ⟨h.id⟩) state).1 = .error e) :
      Reported p (.value a, h, state) (.failure (.transport e))

namespace Client

variable {σ α : Type} (c : Client σ)

theorem runBody_lived (body : Body α) (h : Handle) (state : σ × List Call)
    (lived : Lived h.id state.2 h.closed) :
    let ran := c.recorded.runBody body h state
    ran.2.1.id = h.id ∧ Lived h.id ran.2.2.2 ran.2.1.closed := by
  induction body generalizing h state with
  | ends ending => exact ⟨rfl, lived⟩
  | act action next ih =>
    obtain ⟨sent, acts⟩ := perform_acts c.recorded h state action
    have further := lived.acts acts
    rw [← acts.received] at further
    have rest := ih (c.recorded.perform action h state).1 _ _ further
    rw [acts.id] at rest
    exact rest
  | look next ih => exact ih h h state lived

theorem runBody_recorded (body : Body α) (h : Handle) (state : σ × List Call) :
    unrecorded (c.recorded.runBody body h state) = c.runBody body h state.1 := by
  induction body generalizing h state with
  | ends ending => rfl
  | act action next ih =>
    have same := perform_recorded c action h state
    have rest := ih (c.recorded.perform action h state).1 (c.recorded.perform action h state).2.1
      (c.recorded.perform action h state).2.2
    simp only [runBody, ← same]
    exact rest
  | look next ih => exact ih h h state

theorem closeOnce_open (h : Handle) (state : σ) (isOpen : h.closed = false) :
    (c.closeOnce h state).1 =
      (c.plane.call (.closing ⟨h.id⟩) state).1.mapError .transport := by
  simp only [closeOnce, close, enter_open h isOpen, send, isOpen, Bool.false_eq_true, if_false]
  cases (c.plane.call (.closing ⟨h.id⟩) state).1 <;> rfl

theorem settleEnding_reported (ending : Ending α) (h : Handle) (state : σ) :
    Reported c.plane (ending, h, state) (settleEnding ending (c.closeOnce h state).1) := by
  cases ending with
  | panic => exact .panic h state
  | failure e => exact .failure e h state
  | value a =>
    cases isOpen : h.closed with
    | true =>
      have left : (c.closeOnce h state).1 = .ok () := by rw [closeOnce, if_pos isOpen]
      rw [left]
      exact .shut a h state isOpen
    | false =>
      rw [closeOnce_open c h state isOpen]
      cases answered : (c.plane.call (.closing ⟨h.id⟩) state).1 with
      | ok => exact .closed a h state isOpen answered
      | error e => exact .unclosed a h state isOpen e answered

theorem closeOnce_lived (h : Handle) (state : σ × List Call)
    (lived : Lived h.id state.2 h.closed) :
    (c.recorded.closeOnce h state).2.1.id = h.id ∧
      Lived h.id (c.recorded.closeOnce h state).2.2.2 true := by
  obtain ⟨sent, acts⟩ := closeOnce_acts c.recorded h state
  have further := lived.acts acts
  rw [← acts.received, acts.id, closeOnce_closed] at further
  exact ⟨acts.id, further⟩

theorem work_closes (body : Body α) (h : Handle) (state : σ × List Call)
    (lived : Lived h.id state.2 h.closed) :
    let ran := c.recorded.runBody body h state
    let closed := c.recorded.closeOnce ran.2.1 ran.2.2
    Reported c.plane (c.runBody body h state.1) (settleEnding ran.1 closed.1) ∧
      Lived h.id closed.2.2.2 true ∧ closed.2.1.id = h.id ∧ closed.2.1.closed = true := by
  intro ran closed
  obtain ⟨same, worked⟩ := runBody_lived c body h state lived
  rw [← same] at worked
  obtain ⟨kept, ended⟩ := closeOnce_lived c ran.2.1 ran.2.2 worked
  have reported := settleEnding_reported c ran.1 ran.2.1 ran.2.2.1
  rw [← closeOnce_recorded] at reported
  rw [← runBody_recorded]
  exact ⟨reported, same ▸ ended, kept.trans same, closeOnce_closed ..⟩

theorem withRuntime_recorded (config : RuntimeConfig) (body : Body α) (state : σ × List Call) :
    ((c.recorded.withRuntime config body state).1, (c.recorded.withRuntime config body state).2.1) =
      c.withRuntime config body state.1 := by
  simp only [withRuntime, openRuntime_unrecorded]
  rcases c.recorded.openRuntime config state with ⟨_ | h, opened⟩
  · rfl
  · have work := runBody_recorded c body h opened
    have closing := closeOnce_recorded c (c.recorded.runBody body h opened).2.1
      (c.recorded.runBody body h opened).2.2
    dsimp only
    rw [← work, unrecorded, ← closing]
    rfl

-- Over any plane and for any work: where no runtime is opened that is what is reported, and
-- no closing is sent. Otherwise the plane receives one life of the runtime with one closing
-- at its end, and what is reported is settled by the work first and the closing behind it.
theorem withRuntime_closes_once (config : RuntimeConfig) (body : Body α) (state : σ) :
    let done := c.recorded.withRuntime config body (state, [])
    (done.1, done.2.1) = c.withRuntime config body state ∧
      match c.openRuntime config state with
      | (.error e, _) => done.1 = ⟨.failure e, none⟩ ∧ closings done.2.2 = 0
      | (.ok h, opened) =>
        Reported c.plane (c.runBody body h opened) done.1.ending ∧
          Lived h.id done.2.2 true ∧ closings done.2.2 = 1 ∧
            ∃ final, done.1.handle = some final ∧ final.id = h.id ∧ final.closed = true := by
  intro done
  refine ⟨withRuntime_recorded c config body (state, []), ?_⟩
  have opens := openRuntime_opens c.recorded (state, []) config
  have plain := openRuntime_unrecorded c config (state, [])
  simp only [done, withRuntime, plain]
  generalize c.recorded.openRuntime config (state, []) = opened at opens
  cases opens with
  | invalid e => exact ⟨rfl, rfl⟩
  | failed request e answered => exact ⟨rfl, rfl⟩
  | opened request runtime answered =>
    let after := (c.recorded.plane.call (.opening request) (state, [])).2
    have begun : Lived runtime.runtimeId after.2 false := .opened request
    obtain ⟨reported, lived, kept, isClosed⟩ :=
      work_closes c body ⟨runtime, false, [.opening request]⟩ after begun
    exact ⟨reported, lived, lived.closings, _, rfl, kept, isClosed⟩

end Client

end ControlPlane
