import ControlPlane.Proofs.Server.Workers
-- What holds of the accepted commands in whatever order the steps are made: each is
-- waiting, running or through, exactly once, and what it sends ends once.
namespace ControlPlane

namespace Workers

variable {β : Type} {svc : Service β} {w after : Workers β} {step : WorkerStep}
  {holds : RuntimeId → β → Prop}

def unknownEnd (id : RuntimeId) : List Event := [.finish (-1) ("unknown runtime: " ++ id.text)]

-- A command that runs does so on a runtime that is live, or it came too late and has
-- nothing to say but that.
def Runs (w : Workers β) (r : Running) : Prop :=
  r.job.runtime ∈ w.live ∧ EndsOnce (r.sent ++ r.pending) ∨
    r.job.runtime ∈ w.closed ∧ r.sent ++ r.pending = unknownEnd r.job.runtime

structure Jobs (w : Workers β) : Prop where
  valid : ∀ job ∈ w.waiting, job.opts.check = .ok ()
  known : ∀ job ∈ w.waiting, job.runtime ∈ w.live ∨ job.runtime ∈ w.closed
  runs : ∀ r ∈ w.running, Runs w r
  streams : ∀ s ∈ w.streams, s.1.number ∈ w.gone ∨ EndsOnce s.2

theorem unknownEnd_endsOnce (id : RuntimeId) : EndsOnce (unknownEnd id) :=
  ⟨[], _, rfl, rfl, nofun⟩

theorem Runs.endsOnce {r : Running} (runs : Runs w r) : EndsOnce (r.sent ++ r.pending) := by
  rcases runs with ⟨_, ends⟩ | ⟨_, same⟩
  · exact ends
  · rw [same]
    exact unknownEnd_endsOnce _

-- What no step undoes. In particular no runtime is closed while a command runs on it.
structure Passes (w after : Workers β) : Prop where
  known : ∀ id, id ∈ w.live ∨ id ∈ w.closed → id ∈ after.live ∨ id ∈ after.closed
  closed : ∀ id ∈ w.closed, id ∈ after.closed
  running : ∀ r ∈ w.running, r.job.runtime ∈ w.live → r.job.runtime ∈ after.live

theorem Locks.alone (locks : Locks w) : (w.running.map (·.job.runtime)).Nodup :=
  (List.nodup_append.1 (locks.held.nodup_iff.1 locks.once)).1

theorem Locks.disjoint (locks : Locks w) {r : Running} (runs : r ∈ w.running) {id : RuntimeId}
    (shuts : id ∈ w.shutting) : r.job.runtime ≠ id :=
  (List.nodup_append.1 (locks.held.nodup_iff.1 locks.once)).2.2 _
    (List.mem_map.2 ⟨r, runs, rfl⟩) id shuts

theorem Change.passes (change : Change holds w after) (locks : Locks w) : Passes w after := by
  cases change with
  | moved live closed =>
    refine ⟨?_, ?_, ?_⟩
    · intro id there
      rwa [live.mem_iff, closed]
    · intro id member
      rwa [closed]
    · intro r _ member
      exact live.mem_iff.2 member
  | opened _ live closed =>
    refine ⟨?_, ?_, ?_⟩
    · intro id there
      rw [live.mem_iff, closed]
      exact there.imp_left (.tail _)
    · intro id member
      rwa [closed]
    · intro r _ member
      exact live.mem_iff.2 (.tail _ member)
  | @closed id shuts live closed =>
    refine ⟨?_, ?_, ?_⟩
    · intro other there
      rw [closed, List.mem_cons]
      rw [live.mem_iff, List.mem_cons, or_assoc] at there
      exact or_left_comm.1 there
    · intro other member
      rw [closed]
      exact .tail _ member
    · -- The closing has the lock of its runtime, so that no command there has it.
      intro r runs member
      exact (List.mem_cons.1 (live.mem_iff.1 member)).resolve_left (locks.disjoint runs shuts)

theorem Runs.passes {r : Running} (runs : Runs w r) (member : r ∈ w.running)
    (passes : Passes w after) : Runs after r :=
  runs.imp (.imp_left (passes.running r member)) (.imp_left (passes.closed _))

theorem Jobs.passes (jobs : Jobs w) (passes : Passes w after) (waiting : after.waiting = w.waiting)
    (running : after.running = w.running) (streams : after.streams = w.streams)
    (gone : ∀ n ∈ w.gone, n ∈ after.gone) : Jobs after where
  valid job member := jobs.valid job (waiting ▸ member)
  known job member := passes.known _ (jobs.known job (waiting ▸ member))
  runs r member :=
    have before : r ∈ w.running := running ▸ member
    (jobs.runs r before).passes before passes
  streams s member := (jobs.streams s (streams ▸ member)).imp_left (gone _)

theorem Jobs.release (jobs : Jobs w) {r : Running} {others : List Running}
    (runs : w.running.Perm (r :: others)) (through : r.number ∈ w.gone ∨ r.pending = [])
    (passes : Passes w (w.release r others)) : Jobs (w.release r others) where
  valid := jobs.valid
  known job member := passes.known _ (jobs.known job member)
  runs r' member :=
    have before : r' ∈ w.running := runs.mem_iff.2 (.tail _ member)
    (jobs.runs r' before).passes before passes
  streams s member := by
    rcases List.mem_append.1 member with old | new
    · exact jobs.streams s old
    · obtain rfl := List.mem_singleton.1 new
      refine through.imp_right fun sent => ?_
      have ends := (jobs.runs r (runs.mem_iff.2 (.head _))).endsOnce
      rwa [sent, List.append_nil] at ends

theorem Jobs.accept (jobs : Jobs w) {id : RuntimeId} {opts : ExecOpts}
    (isOpen : id ∈ w.registry.ids) (valid : opts.check = .ok ()) :
    Jobs { w with accepted := w.accepted + 1, waiting := w.waiting ++ [⟨w.accepted, id, opts⟩] } := by
  refine ⟨?_, ?_, jobs.runs, jobs.streams⟩
  · intro job member
    rcases List.mem_append.1 member with old | new
    · exact jobs.valid job old
    · rw [List.mem_singleton.1 new]
      exact valid
  · intro job member
    rcases List.mem_append.1 member with old | new
    · exact jobs.known job old
    · rw [List.mem_singleton.1 new]
      exact .inl (List.mem_append_left _ (List.mem_append_left _ isOpen))

-- What a command sends is known when it begins. On a runtime that was closed it is refused.
theorem Jobs.begins (tracks : svc.backend.Tracks holds) (places : Places holds w) (jobs : Jobs w)
    {job : Job} (waits : job ∈ w.waiting) :
    Runs w ⟨job, [], (svc.backend.exec job.runtime job.opts w.registry.state).1.stream⟩ := by
  rcases jobs.known job waits with live | closed
  · exact .inl ⟨live, tracks.ends job.runtime job.opts w.registry.state⟩
  · refine .inr ⟨closed, ?_⟩
    rw [tracks.unknown _ _ _ (places.free _ closed) (jobs.valid job waits)]
    rfl

theorem Jobs.moves (tracks : svc.backend.Tracks holds) (places : Places holds w) (jobs : Jobs w)
    (passes : Passes w after) (moves : Moves svc w step after) : Jobs after := by
  cases moves with
  | opening | transfer | remove | removeAll | shut | closed =>
    exact jobs.passes passes rfl rfl rfl fun _ there => there
  | leave => exact jobs.passes passes rfl rfl rfl fun _ there => .tail _ there
  | accept isOpen valid => exact jobs.accept isOpen valid
  | begin waits free =>
    refine ⟨?_, ?_, ?_, jobs.streams⟩
    · intro job member
      exact jobs.valid job (waits.mem_iff.2 (.tail _ member))
    · intro job member
      exact jobs.known job (waits.mem_iff.2 (.tail _ member))
    · intro r member
      rcases List.mem_cons.1 member with rfl | old
      · exact jobs.begins tracks places (waits.mem_iff.2 (.head _))
      · exact jobs.runs r old
  | send runs next =>
    refine ⟨jobs.valid, jobs.known, ?_, jobs.streams⟩
    intro r member
    rcases List.mem_cons.1 member with rfl | old
    · have before := jobs.runs _ (runs.mem_iff.2 (.head _))
      unfold Runs at before ⊢
      rwa [List.append_assoc, List.singleton_append, ← next]
    · exact jobs.runs r (runs.mem_iff.2 (.tail _ old))
  | abandon runs gone => exact jobs.release runs (.inl gone) passes
  | finish runs sent => exact jobs.release runs (.inr sent) passes

def numbers (w : Workers β) : List Nat :=
  w.waiting.map (·.number) ++ (w.running.map (·.number) ++ w.streams.map (·.1.number))

def Counted (w : Workers β) : Prop := w.numbers.Perm (List.range w.accepted)

theorem Counted.release {r : Running} {others : List Running} (counted : Counted w)
    (runs : w.running.Perm (r :: others)) : Counted (w.release r others) := by
  have moved : (others.map (·.number) ++ (w.streams.map (·.1.number) ++ [r.number])).Perm
      (w.running.map (·.number) ++ w.streams.map (·.1.number)) :=
    ((List.perm_append_singleton ..).append_left _).trans
      (List.perm_middle.trans ((runs.map (·.number)).symm.append_right _))
  have whole := (moved.append_left (w.waiting.map Job.number)).trans counted
  simpa [Counted, numbers, Workers.release, Running.number] using whole

theorem Counted.moves (counted : Counted w) (moves : Moves svc w step after) : Counted after := by
  cases moves with
  | opening | transfer | leave | remove | removeAll | shut | closed => exact counted
  | accept isOpen valid =>
    have added : (w.waiting.map (·.number) ++ w.accepted :: (w.running.map (·.number) ++
        w.streams.map (·.1.number))).Perm (List.range (w.accepted + 1)) := by
      rw [List.range_succ]
      refine List.perm_middle.trans (.trans ?_ (List.perm_append_singleton ..).symm)
      exact counted.cons _
    simpa [Counted, numbers] using added
  | begin waits free =>
    refine .trans ?_ counted
    exact (((waits.map (·.number)).append_right _).trans List.perm_middle.symm).symm
  | send runs next =>
    refine .trans ?_ counted
    exact ((runs.map (·.number)).symm.append_right _).append_left _
  | abandon runs => exact counted.release runs
  | finish runs => exact counted.release runs

structure Sound (holds : RuntimeId → β → Prop) (w : Workers β) : Prop where
  locks : Locks w
  places : Places holds w
  jobs : Jobs w
  counted : Counted w

theorem sound_start (state : β) : Sound holds (start state) where
  locks := ⟨.nil, .refl _⟩
  places := ⟨.nil, by simp [live, start, Registry.ids, Registry.start],
    by simp [live, start, Registry.ids, Registry.start], by simp [start]⟩
  jobs := ⟨nofun, nofun, nofun, nofun⟩
  counted := .refl _

theorem Sound.moves (tracks : svc.backend.Tracks holds) (sound : Sound holds w)
    (moves : Moves svc w step after) : Sound holds after where
  locks := sound.locks.moves moves
  places := sound.places.change (change_of_moves tracks sound.places moves)
  jobs := sound.jobs.moves tracks sound.places
    ((change_of_moves tracks sound.places moves).passes sound.locks) moves
  counted := sound.counted.moves moves

-- What every step keeps that is made in a sound state, every run keeps.
theorem run_keeps {P : Workers β → Prop}
    (keeps : ∀ {w after : Workers β} {step : WorkerStep}, P w → Moves svc w step after → P after)
    (steps : List WorkerStep) : ∀ {w : Workers β}, P w → P (w.run svc steps) := by
  induction steps with
  | nil => exact id
  | cons step steps ih =>
    intro w holds
    refine ih ?_
    show P ((w.advance svc step).getD w)
    cases made : w.advance svc step with
    | none => exact holds
    | some after => exact keeps holds (moves_of_advance made)

theorem Sound.run (tracks : svc.backend.Tracks holds) (sound : Sound holds w)
    (steps : List WorkerStep) : Sound holds (w.run svc steps) :=
  run_keeps (fun sound moves => sound.moves tracks moves) steps sound

end Workers

end ControlPlane
