import ControlPlane.Executor.Host
import ControlPlane.Executor.Mock
import ControlPlane.Proofs.Executor.Streams
import ControlPlane.Proofs.RuntimeTable
-- Which runtimes a backend holds, and that both backends hold a runtime from its opening
-- to its closing, whatever is done to the others.
namespace ControlPlane

structure Backend.Keeps {β : Type} (backend : Backend β) (holds : RuntimeId → β → Prop) : Prop where
  opened : ∀ id config state opened, (backend.openRuntime id config state).1 = .ok opened →
    holds id (backend.openRuntime id config state).2
  openRuntime : ∀ id config state other, holds other state →
    holds other (backend.openRuntime id config state).2
  exec : ∀ id opts state other, holds other state → holds other (backend.exec id opts state).2
  transfer : ∀ direction id src opts state other, holds other state →
    holds other (backend.transfer direction id src opts state).2
  closed : ∀ id state, holds id state → (backend.close id state).1 = .ok ()
  close : ∀ id state other, other ≠ id → holds other state →
    holds other (backend.close id state).2

-- What each operation does to the runtimes that a backend holds, and how it runs commands.
-- Nothing but an opening adds a runtime and nothing but its closing takes one away.
structure Backend.Tracks {β : Type} (backend : Backend β) (holds : RuntimeId → β → Prop) :
    Prop where
  opened : ∀ id config state opened other, (backend.openRuntime id config state).1 = .ok opened →
    (holds other (backend.openRuntime id config state).2 ↔ other = id ∨ holds other state)
  refused : ∀ id config state e other, (backend.openRuntime id config state).1 = .error e →
    (holds other (backend.openRuntime id config state).2 ↔ holds other state)
  exec : ∀ id opts state other, holds other (backend.exec id opts state).2 ↔ holds other state
  transfer : ∀ direction id src opts state other,
    holds other (backend.transfer direction id src opts state).2 ↔ holds other state
  closed : ∀ id state, holds id state → (backend.close id state).1 = .ok ()
  close : ∀ id state other, holds other (backend.close id state).2 ↔ other ≠ id ∧ holds other state
  unknown : ∀ id opts state, ¬ holds id state → opts.check = .ok () →
    backend.exec id opts state = (.refused (.unknownRuntime id.text), state)
  ends : ∀ id opts state, EndsOnce (backend.exec id opts state).1.stream

theorem Backend.Tracks.keeps {β : Type} {backend : Backend β} {holds : RuntimeId → β → Prop}
    (tracks : backend.Tracks holds) : backend.Keeps holds where
  opened id config state opened accepted :=
    (tracks.opened id config state opened id accepted).2 (.inl rfl)
  openRuntime id config state other held := by
    cases answer : (backend.openRuntime id config state).1 with
    | error e => exact (tracks.refused id config state e other answer).2 held
    | ok opened => exact (tracks.opened id config state opened other answer).2 (.inr held)
  exec id opts state other := (tracks.exec id opts state other).2
  transfer direction id src opts state other :=
    (tracks.transfer direction id src opts state other).2
  closed := tracks.closed
  close id state other ne held := (tracks.close id state other).2 ⟨ne, held⟩

theorem Run.refused_endsOnce {e : ExecutorError} (stays : e ≠ .sinkClosed) :
    EndsOnce (refused e).stream :=
  stream_endsOnce (fun gone => stays (Except.error.inj gone)) nofun

namespace Mock

theorem has_record (id : RuntimeId) (entry : String) (t : Histories) (other : RuntimeId) :
    (record id entry t).2.has other = t.has other := by
  unfold record
  split
  · simp only [RuntimeTable.has_modify]
  · rfl

theorem exec_eq (id : RuntimeId) (opts : ExecOpts) (t : Histories) : exec id opts t =
    match opts.check with
    | .error e => (.refused (.config e), t)
    | .ok () =>
      if t.has id then
        (⟨[.start, .stdout (bytesOf ("mock-exec: " ++ opts.commandLine ++ "\n"))], .ok 0⟩,
          t.modify id (· ++ ["exec " ++ opts.commandLine]))
      else (.refused (.unknownRuntime id.text), t) := by
  unfold exec record
  cases opts.check with
  | error e => rfl
  | ok _ => cases t.has id <;> rfl

theorem tracks : backend.Tracks fun id t => t.has id = true where
  opened id config t opened other _ := t.has_put_iff id other []
  refused id config t e other failed := by cases failed
  exec id opts t other := by
    simp only [backend, exec_eq]
    split
    · rfl
    · split
      · rw [RuntimeTable.has_modify]
      · rfl
  transfer direction id src opts t other := by
    simp only [backend, transfer]
    split
    · rfl
    · rw [has_record]
  closed id t held := by
    simp only [backend, close, held, if_true]
  close id t other := by
    simp only [backend, close]
    split
    · exact t.has_erase_iff id other
    · rename_i absent
      refine ⟨fun held => ⟨?_, held⟩, And.right⟩
      rintro rfl
      exact absent held
  unknown id opts t absent valid := by
    simp only [backend, exec_eq, valid, if_neg absent]
  ends id opts t := by
    simp only [backend, exec_eq]
    split
    · exact Run.refused_endsOnce (by simp)
    · split
      · exact Run.stream_endsOnce (by simp) (by simp [Event.isFinish])
      · exact Run.refused_endsOnce (by simp)

theorem keeps : backend.Keeps fun id t => t.has id = true := tracks.keeps

end Mock

theorem Finished.outcome_stays (finished : Finished) :
    finished.outcome ≠ .error .sinkClosed := by
  unfold outcome
  split <;> simp

namespace Host

theorem outputEvents_output (output : List (Channel × Bytes)) :
    ∀ event ∈ outputEvents output, event.isFinish = false := by
  intro event member
  obtain ⟨⟨channel, data⟩, _, sent⟩ := List.mem_flatMap.1 member
  obtain ⟨chunk, _, rfl⟩ := List.mem_map.1 sent
  cases channel <;> rfl

theorem tracks (m : Machine) (directory : Nat → Except String String) :
    (backend m directory).Tracks fun id s => s.works.has id = true where
  opened id config s opened other accepted := by
    simp only [backend, openRuntime] at accepted ⊢
    split at accepted
    · rename_i supported
      rw [if_pos supported]
      split at accepted
      · cases accepted
      · exact s.works.has_put_iff id other _
    · cases accepted
  refused id config s e other failed := by
    simp only [backend, openRuntime] at failed ⊢
    split at failed
    · rename_i supported
      rw [if_pos supported]
      split at failed
      · rfl
      · cases failed
    · rename_i unsupported
      rw [if_neg unsupported]
  exec id opts s other := by
    simp only [backend, exec]
    split
    · rfl
    split
    · rfl
    split
    · rfl
    · simp only [RuntimeTable.has_modify]
  transfer direction id src opts s other := by
    simp only [backend, transfer]
    split
    · rfl
    split
    · simp only [RuntimeTable.has_modify]
    · rfl
  closed id s held := by
    simp only [backend, close, held, if_true]
  close id s other := by
    simp only [backend, close]
    split
    · exact s.works.has_erase_iff id other
    · rename_i absent
      refine ⟨fun held => ⟨?_, held⟩, And.right⟩
      rintro rfl
      exact absent held
  unknown id opts s absent valid := by
    have none : s.works.get? id = none := by
      simpa [RuntimeTable.has] using absent
    simp only [backend, exec, valid, none]
  ends id opts s := by
    simp only [backend, exec]
    split
    · exact Run.refused_endsOnce (by simp)
    split
    · exact Run.refused_endsOnce (by simp)
    split
    · exact Run.refused_endsOnce (by simp)
    · refine Run.stream_endsOnce (Finished.outcome_stays _) fun event member => ?_
      rcases List.mem_cons.1 member with rfl | output
      · rfl
      · exact outputEvents_output _ event output

theorem keeps (m : Machine) (directory : Nat → Except String String) :
    (backend m directory).Keeps fun id s => s.works.has id = true := (tracks m directory).keeps

end Host

inductive Installed where
  | mock
  | host (machine : Machine) (directory : Nat → Except String String) (localFiles : Volume)

namespace Installed

def State : Installed → Type
  | mock => Mock.Histories
  | host .. => Host.State

def backend : (b : Installed) → Backend b.State
  | mock => Mock.backend
  | host machine directory _ => Host.backend machine directory

def start : (b : Installed) → b.State
  | mock => []
  | host _ _ localFiles => Host.start localFiles

def holds : (b : Installed) → RuntimeId → b.State → Prop
  | mock, id, t => RuntimeTable.has t id = true
  | host .., id, s => RuntimeTable.has s.works id = true

theorem tracks : (b : Installed) → b.backend.Tracks b.holds
  | mock => Mock.tracks
  | host machine directory _ => Host.tracks machine directory

theorem keeps (b : Installed) : b.backend.Keeps b.holds := b.tracks.keeps

end Installed

end ControlPlane
