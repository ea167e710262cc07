import ControlPlane.Proofs.Server.Workers
-- Steps that nothing comes between do what the operations of the server do.
namespace ControlPlane

namespace Workers

variable {β : Type} {svc : Service β} {w after : Workers β}

theorem run_made {step : WorkerStep} (made : w.advance svc step = some after)
    (steps : List WorkerStep) : w.run svc (step :: steps) = after.run svc steps := by
  rw [run, List.foldl_cons, made]
  rfl

theorem run_append (steps later : List WorkerStep) :
    w.run svc (steps ++ later) = (w.run svc steps).run svc later := List.foldl_append

theorem run_sends (svc : Service β) (w : Workers β) (job : Job) (stays : job.number ∉ w.gone)
    (pending sent : List Event) : ({ w with running := [⟨job, sent, pending⟩] } : Workers β).run svc
        (List.replicate pending.length (.send job.number)) =
      { w with running := [⟨job, sent ++ pending, []⟩] } := by
  induction pending generalizing sent with
  | nil =>
    rw [List.append_nil]
    rfl
  | cons event pending ih =>
    have made : ({ w with running := [⟨job, sent, event :: pending⟩] } : Workers β).advance svc
        (.send job.number) = some { w with running := [⟨job, sent ++ [event], pending⟩] } := by
      simp [advance, takeFirst, Running.number, stays]
    rw [List.length_cons, List.replicate_succ, run_made made, ih, List.append_assoc]
    rfl

-- An accepted command that nothing interrupts leaves the registry as running it at once
-- does, and its receiver gets the stream of its run.
theorem run_exec (waiting : w.waiting = []) (running : w.running = []) (locked : w.locked = [])
    (stays : w.accepted ∉ w.gone) {request : Wire.ExecRequest} {run : Run} {s : Registry β}
    (answered : svc.exec request w.registry = (.ok run, s)) :
    w.run svc (.accept request :: .begin w.accepted ::
        (List.replicate run.stream.length (.send w.accepted) ++ [.finish w.accepted])) =
      { w with
        registry := s
        accepted := w.accepted + 1
        streams := w.streams ++
          [(⟨w.accepted, ⟨request.runtimeId⟩, request.opts⟩, run.stream)] } := by
  unfold Service.exec at answered
  split at answered
  · cases answered
  · rename_i id opts accepted
    cases answered
    obtain ⟨_, _, rfl, rfl⟩ := accept_ok accepted
    have accepts : w.advance svc (.accept request) = some { w with
        accepted := w.accepted + 1
        waiting := [⟨w.accepted, ⟨request.runtimeId⟩, request.opts⟩] } := by
      simp [advance, accepted, waiting]
    rw [run_made accepts]
    have begins : ({ w with
        accepted := w.accepted + 1
        waiting := [⟨w.accepted, ⟨request.runtimeId⟩, request.opts⟩] } : Workers β).advance svc
          (.begin w.accepted) =
      some { w with
        registry := { w.registry with
          state := (svc.backend.exec ⟨request.runtimeId⟩ request.opts w.registry.state).2 }
        locked := [⟨request.runtimeId⟩]
        accepted := w.accepted + 1
        waiting := []
        running := [⟨⟨w.accepted, ⟨request.runtimeId⟩, request.opts⟩, [],
          (svc.backend.exec ⟨request.runtimeId⟩ request.opts w.registry.state).1.stream⟩] } := by
      simp [advance, takeFirst, locked, running]
    rw [run_made begins, run_append]
    have sends := run_sends svc { w with
        registry := { w.registry with
          state := (svc.backend.exec ⟨request.runtimeId⟩ request.opts w.registry.state).2 }
        locked := [⟨request.runtimeId⟩]
        accepted := w.accepted + 1
        waiting := [] } ⟨w.accepted, ⟨request.runtimeId⟩, request.opts⟩ stays
      (svc.backend.exec ⟨request.runtimeId⟩ request.opts w.registry.state).1.stream []
    rw [sends]
    simp [run, advance, takeFirst, Running.number, release, waiting, running, locked]

theorem run_close {request : Wire.CloseRequest}
    (isOpen : w.registry.isOpen request.runtimeId = true)
    (free : ⟨request.runtimeId⟩ ∉ w.locked) :
    (w.run svc [.remove ⟨request.runtimeId⟩, .shut ⟨request.runtimeId⟩,
      .closed ⟨request.runtimeId⟩]).registry = (svc.close request w.registry).2 := by
  have registered : ⟨request.runtimeId⟩ ∈ w.registry.ids := (RuntimeTable.has_iff _ _).1 isOpen
  have closes : (svc.close request w.registry).2 =
      ⟨w.registry.records.erase ⟨request.runtimeId⟩,
        (svc.backend.close ⟨request.runtimeId⟩ w.registry.state).2⟩ := by
    simp only [Service.close, isOpen, if_true]
    split <;> rename_i answer <;> rw [answer]
  rw [closes]
  simp [run, advance, registered, free]

def closings (ids : List RuntimeId) : List WorkerStep := ids.flatMap fun id => [.shut id, .closed id]

theorem run_closings (ids : List RuntimeId) (locked : w.locked = []) (closing : w.closing = ids) :
    (w.run svc (closings ids)).registry =
      ⟨w.registry.records, (svc.closeEach ids w.registry.state).2⟩ := by
  induction ids generalizing w with
  | nil => rfl
  | cons id ids ih =>
    have shuts : w.advance svc (.shut id) = some { w with
        locked := [id]
        closing := ids
        shutting := id :: w.shutting } := by
      simp [advance, locked, closing]
    have closes : ({ w with
        locked := [id]
        closing := ids
        shutting := id :: w.shutting } : Workers β).advance svc (.closed id) = some { w with
        registry := { w.registry with state := (svc.backend.close id w.registry.state).2 }
        locked := []
        closing := ids
        closed := id :: w.closed } := by
      simp [advance]
    have steps : closings (id :: ids) = .shut id :: .closed id :: closings ids := rfl
    rw [steps, run_made shuts, run_made closes, ih rfl rfl, Service.closeEach]
    split <;> rename_i answer <;> rw [answer]

theorem run_closeAll (locked : w.locked = []) (closing : w.closing = []) :
    (w.run svc (.removeAll :: closings w.registry.ids)).registry = (svc.closeAll w.registry).2 := by
  have removes : w.advance svc .removeAll = some { w with
      registry := { w.registry with records := [] }
      closing := w.registry.ids } := by
    simp [advance, closing]
  rw [run_made removes]
  exact run_closings w.registry.ids locked rfl

end Workers

end ControlPlane
