import ControlPlane.Proofs.Server.Jobs
import Mathlib.Algebra.GroupWithZero.Nat
-- Commands and closings exclude each other, whatever the order of their steps: while a
-- command runs no other one runs on its runtime and the backend does not close it, one
-- that comes too late is refused, and every accepted command comes to its end.
namespace ControlPlane

namespace Workers

variable {β : Type} {svc : Service β} {w after : Workers β} {step : WorkerStep}
  {holds : RuntimeId → β → Prop}

structure Late (job : Job) (w : Workers β) : Prop where
  closed : job.runtime ∈ w.closed
  streams : ∀ s ∈ w.streams, s.1 = job → job.number ∈ w.gone ∨ s.2 = unknownEnd job.runtime

theorem Sound.runs_closed (sound : Sound holds w) {r : Running} (runs : r ∈ w.running)
    (closed : r.job.runtime ∈ w.closed) : r.sent ++ r.pending = unknownEnd r.job.runtime := by
  rcases sound.jobs.runs r runs with ⟨live, _⟩ | ⟨_, same⟩
  · exact absurd (sound.places.held _ live) (sound.places.free _ closed)
  · exact same

theorem Late.release {job : Job} (sound : Sound holds w) (late : Late job w) {r : Running}
    {others : List Running} (runs : w.running.Perm (r :: others))
    (through : r.number ∈ w.gone ∨ r.pending = []) : Late job (w.release r others) := by
  refine ⟨late.closed, ?_⟩
  intro s member same
  rcases List.mem_append.1 member with old | new
  · exact late.streams s old same
  · obtain rfl := List.mem_singleton.1 new
    obtain rfl : r.job = job := same
    refine through.imp_right fun sent => ?_
    have whole := sound.runs_closed (runs.mem_iff.2 (.head _)) late.closed
    rwa [sent, List.append_nil] at whole

theorem Late.moves {job : Job} (sound : Sound holds w) (late : Late job w)
    (moves : Moves svc w step after) : Late job after := by
  cases moves with
  | opening | transfer | accept | begin | send | remove | removeAll | shut =>
    exact ⟨late.closed, late.streams⟩
  | leave =>
    refine ⟨late.closed, ?_⟩
    intro s member same
    exact (late.streams s member same).imp_left (.tail _)
  | abandon runs gone => exact late.release sound runs (.inl gone)
  | finish runs sent => exact late.release sound runs (.inr sent)
  | closed => exact ⟨.tail _ late.closed, late.streams⟩

theorem Sound.late (sound : Sound holds w) {job : Job} (waits : job ∈ w.waiting)
    (closed : job.runtime ∈ w.closed) : Late job w := by
  refine ⟨closed, ?_⟩
  intro s member same
  -- A command that waits has left no stream yet, since each is in one place.
  have distinct : w.numbers.Nodup := sound.counted.nodup_iff.2 List.nodup_range
  have clash := (List.nodup_append.1 distinct).2.2 job.number
    (List.mem_map.2 ⟨job, waits, rfl⟩) job.number
    (List.mem_append_right _ (List.mem_map.2 ⟨s, member, by rw [same]⟩))
  exact absurd rfl clash

theorem Late.run {job : Job} (tracks : svc.backend.Tracks holds) (sound : Sound holds w)
    (late : Late job w) (steps : List WorkerStep) : Late job (w.run svc steps) :=
  (run_keeps (P := fun w => Sound holds w ∧ Late job w)
    (fun kept moves => ⟨kept.1.moves tracks moves, kept.2.moves kept.1 moves⟩) steps
    ⟨sound, late⟩).2

end Workers

def WorkerStep.isWork : WorkerStep → Bool
  | .begin _ => true
  | .send _ => true
  | .finish _ => true
  | .shut _ => true
  | .closed _ => true
  | _ => false

namespace Workers

variable {β : Type} {svc : Service β} {w after : Workers β} {step : WorkerStep}
  {holds : RuntimeId → β → Prop}

def load (w : Workers β) : Nat :=
  (w.running.map fun r => r.pending.length + 1).sum + 2 * w.closing.length + w.shutting.length

theorem load_running {running : List Running} {r : Running} {others : List Running}
    (runs : running.Perm (r :: others)) : (running.map fun r => r.pending.length + 1).sum =
      r.pending.length + 1 + (others.map fun r => r.pending.length + 1).sum := by
  rw [(runs.map _).sum_nat, List.map_cons, List.sum_cons]

-- Each step of work begins a command that waited, or leaves less to do.
theorem Moves.lessens (moves : Moves svc w step after) (work : step.isWork = true) :
    Prod.Lex (· < ·) (· < ·) (after.waiting.length, after.load) (w.waiting.length, w.load) := by
  cases moves with
  | begin waits =>
    refine .left _ _ ?_
    rw [waits.length_eq]
    exact Nat.lt_succ_self _
  | send runs next =>
    refine .right _ ?_
    simp only [load, load_running runs, next, List.map_cons, List.sum_cons, List.length_cons]
    omega
  | abandon runs =>
    refine .right _ ?_
    simp only [load, release, load_running runs]
    omega
  | finish runs =>
    refine .right _ ?_
    simp only [load, release, load_running runs]
    omega
  | shut waits =>
    refine .right _ ?_
    have less := List.length_erase_of_mem waits
    have some := List.length_pos_of_mem waits
    simp only [load, List.length_cons]
    omega
  | closed shuts =>
    refine .right _ ?_
    have less := List.length_erase_of_mem shuts
    have some := List.length_pos_of_mem shuts
    simp only [load]
    omega
  | _ => cases work

theorem work_ends (svc : Service β) : WellFounded fun after w : Workers β =>
    ∃ step : WorkerStep, step.isWork = true ∧ w.advance svc step = some after := by
  refine Subrelation.wf (fun ⟨step, work, made⟩ => ?_)
    (InvImage.wf (fun w : Workers β => (w.waiting.length, w.load))
      (Prod.lex Nat.lt_wfRel Nat.lt_wfRel).wf)
  exact (moves_of_advance made).lessens work

theorem takeFirst_of_mem {α : Type} (test : α → Bool) {l : List α} {a : α} (member : a ∈ l)
    (passes : test a = true) : ∃ first others, takeFirst test l = some (first, others) := by
  cases taken : takeFirst test l with
  | none =>
    have fails := takeFirst_none taken a member
    rw [passes] at fails
    cases fails
  | some pair => exact ⟨pair.1, pair.2, rfl⟩

def Rests (svc : Service β) (w : Workers β) : Prop :=
  ∀ step : WorkerStep, step.isWork = true → w.advance svc step = none

theorem Rests.running (rests : Rests svc w) : w.running = [] := by
  apply List.eq_nil_iff_forall_not_mem.2
  intro r runs
  obtain ⟨first, others, taken⟩ := takeFirst_of_mem (·.number == r.number) runs
    (beq_self_eq_true _)
  have sends := rests (.send r.number) rfl
  have finishes := rests (.finish r.number) rfl
  simp only [advance, taken] at sends finishes
  cases pending : first.pending with
  | nil => simp [pending] at finishes
  | cons event later =>
    rw [pending] at sends
    dsimp only at sends
    split at sends <;> cases sends

theorem Rests.shutting (rests : Rests svc w) : w.shutting = [] := by
  apply List.eq_nil_iff_forall_not_mem.2
  intro id shuts
  have closes := rests (.closed id) rfl
  simp [advance, shuts] at closes

theorem Rests.locked (rests : Rests svc w) (locks : Locks w) : w.locked = [] := by
  have held := locks.held
  rw [rests.running, rests.shutting] at held
  exact held.eq_nil

theorem Rests.waiting (rests : Rests svc w) (locks : Locks w) : w.waiting = [] := by
  apply List.eq_nil_iff_forall_not_mem.2
  intro job waits
  obtain ⟨first, others, taken⟩ := takeFirst_of_mem (·.number == job.number) waits
    (beq_self_eq_true _)
  have begins := rests (.begin job.number) rfl
  simp [advance, taken, rests.locked locks] at begins

end Workers

namespace Installed

def service (b : Installed) (buildId : BuildId) (words : Json.Words) : Service b.State :=
  ⟨buildId, b.backend, words⟩

theorem service_tracks (b : Installed) (buildId : BuildId) (words : Json.Words) :
    (b.service buildId words).backend.Tracks b.holds := b.tracks

def after (b : Installed) (buildId : BuildId) (words : Json.Words) (steps : List WorkerStep) :
    Workers b.State :=
  (Workers.start b.start).run (b.service buildId words) steps

theorem sound_after (b : Installed) (buildId : BuildId) (words : Json.Words)
    (steps : List WorkerStep) : (b.after buildId words steps).Sound b.holds :=
  (Workers.sound_start b.start).run (b.service_tracks buildId words) steps

end Installed

namespace Workers

structure Orderly (b : Installed) (buildId : BuildId) (words : Json.Words) (w : Workers b.State) :
    Prop where
  -- No two commands of one runtime run at the same time.
  alone : (w.running.map (·.job.runtime)).Nodup
  -- No command runs while the backend closes its runtime.
  apart : ∀ r ∈ w.running, r.job.runtime ∉ w.shutting
  -- The backend holds the runtime of a command that runs. One that is told to run on a
  -- closed runtime has nothing to say but that it is gone.
  held : ∀ r ∈ w.running, b.holds r.job.runtime w.registry.state ∨
    r.job.runtime ∈ w.closed ∧ r.sent ++ r.pending = unknownEnd r.job.runtime
  closed : ∀ id ∈ w.closed, ¬ b.holds id w.registry.state
  -- A command whose runtime was closed before it began does nothing in the backend.
  refused : ∀ job ∈ w.waiting, job.runtime ∈ w.closed →
    b.backend.exec job.runtime job.opts w.registry.state =
      (.refused (.unknownRuntime job.runtime.text), w.registry.state)
  -- Whatever happens until it is through, its receiver gets the refusal and nothing else.
  late : ∀ job ∈ w.waiting, job.runtime ∈ w.closed → ∀ later events,
    (job, events) ∈ (w.run (b.service buildId words) later).streams →
      job.number ∈ (w.run (b.service buildId words) later).gone ∨ events = unknownEnd job.runtime
  -- What a receiver that stays got has one end, and that is the last.
  streams : ∀ s ∈ w.streams, s.1.number ∈ w.gone ∨ EndsOnce s.2
  -- Every accepted command is waiting, running or through, and only one of these.
  counted : w.numbers.Perm (List.range w.accepted)
  -- Where no work can be done any more, every accepted command is through.
  rests : Rests (b.service buildId words) w →
    (w.streams.map (·.1.number)).Perm (List.range w.accepted)

-- The steps of accepting, running and closing may come in any order, and work always comes
-- to an end.
theorem commands_exclude_closing (b : Installed) (buildId : BuildId) (words : Json.Words)
    (steps : List WorkerStep) : Orderly b buildId words (b.after buildId words steps) ∧
      WellFounded fun later w : Workers b.State => ∃ step : WorkerStep, step.isWork = true ∧
        w.advance (b.service buildId words) step = some later := by
  have sound := b.sound_after buildId words steps
  refine ⟨⟨sound.locks.alone, ?_, ?_, sound.places.free, ?_, ?_, sound.jobs.streams, sound.counted,
    ?_⟩, work_ends _⟩
  · intro r runs shuts
    exact sound.locks.disjoint runs shuts rfl
  · intro r runs
    exact (sound.jobs.runs r runs).imp_left fun live => sound.places.held _ live.1
  · intro job waits closed
    exact b.tracks.unknown _ _ _ (sound.places.free _ closed) (sound.jobs.valid job waits)
  · intro job waits closed later events through
    have late := (sound.late waits closed).run (b.service_tracks buildId words) sound later
    exact late.streams _ through rfl
  · intro rests
    have counted := sound.counted
    rw [Counted, numbers, rests.waiting sound.locks, rests.running] at counted
    exact counted

def overtaken : List WorkerStep :=
  [.opening ⟨"rt-1"⟩ ⟨"build", .host, .empty, []⟩, .accept ⟨"rt-1", .ofName "make"⟩,
    .remove ⟨"rt-1"⟩, .shut ⟨"rt-1"⟩, .closed ⟨"rt-1"⟩]

def overtakenEnd : Workers Mock.Histories :=
  (Installed.mock.after ⟨"build"⟩ Json.wordless overtaken).run
    (Installed.mock.service ⟨"build"⟩ Json.wordless) [.begin 0, .send 0, .finish 0]

theorem commands_exclude_closing_overtaken :
    overtakenEnd.streams.map (·.1) = [⟨0, ⟨"rt-1"⟩, .ofName "make"⟩] ∧
      ∀ events, (⟨0, ⟨"rt-1"⟩, .ofName "make"⟩, events) ∈ overtakenEnd.streams →
        events = unknownEnd ⟨"rt-1"⟩ := by
  have orderly := (commands_exclude_closing .mock ⟨"build"⟩ Json.wordless overtaken).1
  refine ⟨by decide +kernel, ?_⟩
  intro events through
  have late := orderly.late ⟨0, ⟨"rt-1"⟩, .ofName "make"⟩ (by decide +kernel) (by decide +kernel)
    [.begin 0, .send 0, .finish 0] events through
  exact late.resolve_left (by decide +kernel)

end Workers

end ControlPlane
