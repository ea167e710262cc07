import ControlPlane.EventReader
import ControlPlane.Proofs.Event.RoundTrip
-- The items of an input depend on its octets alone, not on how the reads cut it, and the
-- lines of events are read as these events.
namespace ControlPlane

def Read.brought : Read → Bytes
  | .piece bytes => bytes
  | .interrupted => []
  | .failed _ => []

-- Reads that bring a body, in whatever pieces and with whatever interruptions.
structure Brings (reads : List Read) (body : Bytes) : Prop where
  unbroken : ∀ detail, .failed detail ∉ reads
  joined : reads.flatMap Read.brought = body

namespace EventReader

variable {words : Json.Words}

theorem feed_append (line a b : Bytes) :
    feed words line (a ++ b) =
      ((feed words line a).1 ++ (feed words (feed words line a).2 b).1,
        (feed words (feed words line a).2 b).2) := by
  induction a generalizing line with
  | nil => rfl
  | cons c a ih =>
    by_cases newline : c = 10
    · simp only [List.cons_append, feed, newline, if_true, ih, List.append_assoc]
    · simp only [List.cons_append, feed, newline, if_false, ih]

def lastItem (words : Json.Words) (line : Bytes) : List Item :=
  if line.isEmpty then [] else (lineItem words line.reverse).toList

theorem itemsFrom_append (line : Bytes) (reads rest : List Read) {body : Bytes}
    (brings : Brings reads body) :
    itemsFrom words line (reads ++ rest) =
      (feed words line body).1 ++ itemsFrom words (feed words line body).2 rest := by
  obtain ⟨unbroken, rfl⟩ := brings
  induction reads generalizing line with
  | nil => rfl
  | cons read reads ih =>
    have later : ∀ detail, .failed detail ∉ reads :=
      fun detail member => unbroken detail (List.mem_cons_of_mem _ member)
    cases read with
    | piece bytes =>
      rw [List.cons_append, itemsFrom, ih _ later, List.flatMap_cons, feed_append,
        List.append_assoc]
      rfl
    | interrupted => exact ih line later
    | failed detail => exact absurd (List.mem_cons_self) (unbroken detail)

theorem itemsFrom_unbroken (line : Bytes) (reads : List Read) {body : Bytes}
    (brings : Brings reads body) :
    itemsFrom words line reads =
      (feed words line body).1 ++ lastItem words (feed words line body).2 := by
  have whole : itemsFrom words line (reads ++ []) = _ :=
    itemsFrom_append line reads [] brings
  rwa [List.append_nil] at whole

theorem feed_open (line part rest : Bytes) (inside : 10 ∉ part) :
    feed words line (part ++ rest) = feed words (part.reverse ++ line) rest := by
  induction part generalizing line with
  | nil => rfl
  | cons b part ih =>
    have other : b ≠ 10 := fun same => inside (by rw [same]; exact .head _)
    rw [List.cons_append, feed, if_neg other,
      ih (b :: line) (fun member => inside (List.mem_cons_of_mem _ member)), List.reverse_cons,
      List.append_assoc, List.singleton_append]

theorem lineItem_front (e : Event) : lineItem words e.front = some (.ok e) := by
  obtain ⟨c, cs, begins, _⟩ := e.toJson.print_begins
  have present : e.toJson.print.isEmpty = false := by rw [begins]; rfl
  rw [lineItem, Event.front, Utf8.decode?_encode]
  simp only [Json.trimList_print, present, Event.decode_print, Bool.false_eq_true, if_false]

theorem feed_encode (e : Event) (rest : Bytes) :
    feed words [] (e.encode ++ rest) =
      (.ok e :: (feed words [] rest).1, (feed words [] rest).2) := by
  rw [Event.encode_eq, List.append_assoc, feed_open _ _ _ e.newline_notMem_front,
    List.append_nil, List.singleton_append, feed, if_pos rfl, List.reverse_reverse,
    lineItem_front]
  rfl

theorem feed_events (events : List Event) :
    feed words [] (events.flatMap Event.encode) = (events.map .ok, []) := by
  induction events with
  | nil => rfl
  | cons e events ih => rw [List.flatMap_cons, feed_encode, ih, List.map_cons]

theorem items_events (events : List Event) {reads : List Read}
    (brings : Brings reads (events.flatMap Event.encode)) :
    items words reads = events.map .ok := by
  rw [items, itemsFrom_unbroken [] reads brings, feed_events]
  exact List.append_nil _

end EventReader

end ControlPlane
