import ControlPlane.Executor.Backend
-- How the stream of a run ends.
namespace ControlPlane

def EndsOnce (events : List Event) : Prop :=
  ∃ front last, events = front ++ [last] ∧ last.isFinish = true ∧
    ∀ event ∈ front, event.isFinish = false

namespace Run

theorem stream_ends (run : Run) (stays : run.outcome ≠ .error .sinkClosed) :
    ∃ code error, run.stream = run.events ++ [.finish code error] ∧
      match run.outcome with
      | .ok exit => code = exit ∧ error = ""
      | .error e => error = e.message := by
  unfold stream ending?
  cases outcome : run.outcome with
  | ok exit => exact ⟨exit, "", rfl, rfl, rfl⟩
  | error e =>
    cases e with
    | sinkClosed => exact absurd outcome stays
    | _ => exact ⟨-1, _, rfl, rfl⟩

theorem stream_endsOnce {run : Run} (stays : run.outcome ≠ .error .sinkClosed)
    (output : ∀ event ∈ run.events, event.isFinish = false) : EndsOnce run.stream := by
  obtain ⟨code, error, ends, _⟩ := run.stream_ends stays
  exact ⟨run.events, .finish code error, ends, rfl, output⟩

end Run

end ControlPlane
