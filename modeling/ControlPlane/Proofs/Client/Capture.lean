import ControlPlane.Proofs.Client.Demux
import ControlPlane.Proofs.Event.Reader
import ControlPlane.Proofs.Executor.Streams
import ControlPlane.Proofs.Http.Chunked
-- From the run of a command to what the client captures of it, through the stream of its
-- events, their lines, the chunks of the response and the reads of the client.
namespace ControlPlane

theorem append_ne_empty {front : String} (some : front ≠ "") (rest : String) :
    front ++ rest ≠ "" :=
  fun empty => some (String.append_eq_empty_iff.mp empty).1

theorem ConfigError.message_ne_empty (e : ConfigError) : e.message ≠ "" := by
  cases e with
  | unreadable | notToml | missingSetting => exact append_ne_empty (by decide) _
  | unknownBackend | unknownPullStrategy | invalidEnv =>
    exact append_ne_empty (append_ne_empty (by decide) _) _
  | invalidPath =>
    exact append_ne_empty (append_ne_empty (append_ne_empty (by decide) _) _) _
  | emptyImage | conflictingAuth | dockerSectionOnHost | emptyCommand => decide

theorem ExecutorError.message_ne_empty (e : ExecutorError) : e.message ≠ "" := by
  cases e with
  | config error => exact error.message_ne_empty
  | io | unknownRuntime | transfer => exact append_ne_empty (by decide) _
  | backendUnavailable => exact append_ne_empty (append_ne_empty (by decide) _) _
  | spawnFailed =>
    exact append_ne_empty (append_ne_empty (append_ne_empty (by decide) _) _) _
  | sinkClosed => decide

namespace Run

theorem toEnd_events (run : Run) : run.toEnd.1 = run.stream := List.take_length

end Run

namespace Client

variable {σ : Type}

theorem capture_answer (c : Client σ) (opts : ExecOpts) (h : Handle) (state : σ)
    (items : List Item) (isOpen : h.closed = false) (valid : opts.check = .ok ())
    (answered : (c.plane.call (.exec ⟨h.id, opts⟩) state).1 = .ok items) :
    (c.capture opts h state).1 =
      Captured.ofDemuxed (demux items (some (.ofSink .buffer)) (some (.ofSink .buffer))) := by
  have entered : h.enter .exec = .ok () := by
    rw [Handle.enter, isOpen]
    rfl
  rw [capture, exec, entered]
  simp only [valid]
  have sent : (c.send (.exec ⟨h.id, opts⟩) h state).1 = .ok items := answered
  split
  · rename_i failed
    rw [failed] at sent
    cases sent
  · rename_i arrived
    rw [arrived] at sent
    cases sent
    rfl

-- The bytes and the code that a command gave reach the client unchanged, whatever the order
-- of its output and wherever the body is cut. A command that could not be run is reported
-- with the reason, never as an exit.
theorem capture_run (words : Json.Words) (c : Client σ) (opts : ExecOpts) (h : Handle) (state : σ)
    (run : Run) (outs errs : List Bytes) (isOpen : h.closed = false) (valid : opts.check = .ok ())
    (emits : Emits false outs errs run.events) (stays : run.outcome ≠ .error .sinkClosed) :
    ∃ body, EventStream.body? (EventStream.write none run.toEnd.1).bytes = some body ∧
      ∀ reads, Brings reads body →
        (c.plane.call (.exec ⟨h.id, opts⟩) state).1 = .ok (EventReader.items words reads) →
        (c.capture opts h state).1 =
          match run.outcome with
          | .ok code => .ok ⟨code, outs.flatten, errs.flatten⟩
          | .error e => .error (.remote e.message) := by
  refine ⟨_, EventStream.body?_write run.toEnd.1, fun reads brings answered => ?_⟩
  obtain ⟨code, error, stream, ending⟩ := run.stream_ends stays
  have items : EventReader.items words reads = run.events.map .ok ++ [.ok (.finish code error)] := by
    rw [EventReader.items_events _ brings, run.toEnd_events, stream, List.map_append]
    rfl
  rw [capture_answer c opts h state _ isOpen valid answered, items,
    Captured.ofDemuxed_emits emits]
  cases outcome : run.outcome with
  | ok exit =>
    rw [outcome] at ending
    rw [if_neg (not_not.mpr ending.2), ending.1]
  | error e =>
    rw [outcome] at ending
    rw [if_pos (by rw [ending]; exact e.message_ne_empty), ending]

def greeting : Run := ⟨[.start, .stdout [104], .stderr [33], .stdout [105]], .ok 3⟩

def greetingBody : Bytes := greeting.toEnd.1.flatMap Event.encode

def greetingReads : List Read :=
  [.piece (greetingBody.take 30), .interrupted, .piece (greetingBody.drop 30)]

def greetingPlane : Plane Unit where
  call
    | .exec _, state => (.ok (EventReader.items Json.wordless greetingReads), state)
    | call, state => (.error (.rejected call.method 404 "unknown runtime"), state)

def greetingHandle : Handle := ⟨⟨"rt-1", "/work", ⟨"linux", "amd64", 2, 4096⟩⟩, false, []⟩

theorem capture_greeting : (ExecOpts.ofName "greet").check = .ok () ∧
    Emits false [[104], [105]] [[33]] greeting.events ∧ greeting.outcome ≠ .error .sinkClosed ∧
    EventStream.body? (EventStream.write none greeting.toEnd.1).bytes = some greetingBody ∧
    Brings greetingReads greetingBody ∧
    (capture ⟨⟨"build"⟩, greetingPlane⟩ (.ofName "greet") greetingHandle ()).1 =
      .ok ⟨3, [104, 105], [33]⟩ := by
  have valid : (ExecOpts.ofName "greet").check = .ok () := rfl
  have emits : Emits false [[104], [105]] [[33]] greeting.events :=
    .start (.stdout _ (.stderr _ (.stdout _ (.nothing _))))
  have stays : greeting.outcome ≠ .error .sinkClosed := nofun
  have brings : Brings greetingReads greetingBody := by
    refine ⟨fun detail member => ?_, ?_⟩
    · simp [greetingReads] at member
    · simp [greetingReads, Read.brought]
  obtain ⟨body, sent, captured⟩ := capture_run Json.wordless ⟨⟨"build"⟩, greetingPlane⟩
    (.ofName "greet") greetingHandle () greeting _ _ rfl valid emits stays
  have same : body = greetingBody := Option.some.inj (sent.symm.trans (EventStream.body?_write _))
  rw [same] at sent captured
  exact ⟨valid, emits, stays, sent, brings, captured _ brings rfl⟩

end Client

end ControlPlane
