import ControlPlane.Proofs.Event.Reader
import ControlPlane.Proofs.Http.Coding
-- The whole way of a stream of events: the response that is written for it, the chunks
-- that its body consists of, their lines, and what a reader makes of them.
namespace ControlPlane

theorem Event.count_newline (e : Event) : e.encode.count 10 = 1 := by
  rw [e.encode_eq, List.count_append, List.count_eq_zero_of_not_mem e.newline_notMem_front]
  rfl

theorem Event.getLast?_encode (e : Event) : e.encode.getLast? = some 10 := by
  simp [e.encode_eq]

namespace EventStream

theorem coded_events (events : List Event) (chunks : List Bytes) :
    Chunked.Coded (Chunked.write (events.map Event.encode)) chunks ↔
      chunks = events.map Event.encode := by
  rw [← Chunked.read?_eq_some_iff, read?_events, Option.some.injEq, eq_comm]

-- A response is its head and a body that has one chunk for each event, its line, and no
-- other reading. A line has a newline at its end and nowhere else. The lines are read as
-- these events, wherever the reads cut them.
theorem events_through_stream (words : Json.Words) (events : List Event) :
    (write none events).result = .ok () ∧
      ∃ body, (write none events).bytes = bytesOf head ++ body ∧
        (∀ chunks, Chunked.Coded body chunks ↔ chunks = events.map Event.encode) ∧
        (∀ e : Event, e.encode.count 10 = 1 ∧ e.encode.getLast? = some 10) ∧
        ∀ reads, Brings reads (events.map Event.encode).flatten →
          EventReader.items words reads = events.map .ok := by
  obtain ⟨bytes, result⟩ := write_stays events
  refine ⟨result, _, bytes, coded_events events, ?_, ?_⟩
  · intro e
    exact ⟨e.count_newline, e.getLast?_encode⟩
  · intro reads brings
    exact EventReader.items_events events (List.flatMap_def ▸ brings)

def mixed : List Event := [.start, .stdout [0, 10, 255], .finish (-1) "no \"such\"\nfile"]

def mixedBody : Bytes := (mixed.map Event.encode).flatten

def mixedReads : List Read :=
  [.piece (mixedBody.take 21), .interrupted, .piece (mixedBody.drop 21)]

theorem events_through_stream_mixed : Brings mixedReads mixedBody ∧
    EventReader.items Json.wordless mixedReads = mixed.map .ok := by
  have brings : Brings mixedReads mixedBody := by
    refine ⟨?_, ?_⟩
    · intro detail member
      simp [mixedReads] at member
    · simp [mixedReads, Read.brought]
  obtain ⟨_, body, _, _, _, items⟩ := events_through_stream Json.wordless mixed
  exact ⟨brings, items mixedReads brings⟩

end EventStream

end ControlPlane
