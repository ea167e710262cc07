import ControlPlane.Http.EventStream
import ControlPlane.Proofs.Event.RoundTrip
-- A body in chunks is read back as these chunks, and the stream of events as their lines.
namespace ControlPlane

namespace Chunked

def sizeOctets (n : Nat) : Bytes := Utf8.encode (sizeDigits n)

theorem sizeOctets_small : ∀ n < 16, (sizeOctets n).map digit? = [some n] := by decide

theorem sizeOctets_large (n : Nat) (large : 16 ≤ n) :
    sizeOctets n = sizeOctets (n / 16) ++ sizeOctets (n % 16) := by
  have last : Nat.toDigits 16 (n % 16) = [(n % 16).digitChar] :=
    Nat.toDigits_of_lt_base (Nat.mod_lt n (by decide))
  simp only [sizeOctets, sizeDigits]
  rw [Nat.toDigits_of_base_le (by decide) large, List.map_append, Utf8.encode_append, last]

theorem readSize_digit {b : UInt8} {d : Nat} (digit : digit? b = some d) (size : Nat)
    (rest : Bytes) :
    readSize size (b :: rest) = readSize (size * 16 + d) rest := by
  have other : b ≠ 13 := by
    rintro rfl
    cases digit
  rw [readSize.eq_2 _ _ _ (fun _ same _ => other same), digit, Option.bind_some]

theorem readSize_sizeOctets (n : Nat) (rest : Bytes) :
    readSize 0 (sizeOctets n ++ rest) = readSize n rest := by
  have single : ∀ m < 16, ∀ size rest,
      readSize size (sizeOctets m ++ rest) = readSize (size * 16 + m) rest := by
    intro m small size rest
    obtain ⟨b, digits, digit⟩ := List.map_eq_singleton_iff.mp (sizeOctets_small m small)
    rw [digits, List.singleton_append, readSize_digit digit]
  induction n using Nat.strongRecOn generalizing rest with
  | ind n ih =>
    by_cases small : n < 16
    · rw [single n small, Nat.zero_mul, Nat.zero_add]
    · rw [sizeOctets_large n (by omega), List.append_assoc, ih (n / 16) (by omega),
        single (n % 16) (Nat.mod_lt n (by decide)), Nat.div_add_mod']

theorem sizeOctets_begin (n : Nat) : ∃ b bs d, sizeOctets n = b :: bs ∧ digit? b = some d := by
  induction n using Nat.strongRecOn with
  | ind n ih =>
    by_cases small : n < 16
    · obtain ⟨b, digits, digit⟩ := List.map_eq_singleton_iff.mp (sizeOctets_small n small)
      exact ⟨b, [], n, digits, digit⟩
    · obtain ⟨b, bs, d, begins, digit⟩ := ih (n / 16) (by omega)
      refine ⟨b, bs ++ sizeOctets (n % 16), d, ?_, digit⟩
      rw [sizeOctets_large n (by omega), begins, List.cons_append]

theorem readChunk_chunk (data rest : Bytes) :
    readChunk (chunk data ++ rest) = some (data, rest) := by
  obtain ⟨b, bs, d, begins, digit⟩ := sizeOctets_begin data.length
  have layout : chunk data ++ rest =
      sizeOctets data.length ++ (13 :: 10 :: (data ++ (13 :: 10 :: rest))) := by
    simp [chunk, sizeOctets, crlf]
  have size : readSize 0 (chunk data ++ rest) =
      some (data.length, data ++ (13 :: 10 :: rest)) := by
    rw [layout, readSize_sizeOctets, readSize]
  have front : (chunk data ++ rest).head?.bind digit? = some d := by
    rw [layout, begins, List.cons_append, List.head?_cons, Option.bind_some, digit]
  simp only [readChunk, front, size, List.drop_left, List.take_left]
  rfl

theorem chunk_length_pos (data : Bytes) : 0 < (chunk data).length := by
  simp only [chunk, crlf, List.length_append, List.length_cons]
  omega

theorem read?_write (chunks : List Bytes) (full : ∀ data ∈ chunks, data ≠ []) :
    read? (write chunks) = some chunks := by
  induction chunks with
  | nil =>
    have last : readChunk (write []) = some ([], []) := readChunk_chunk [] []
    rw [read?, last]
  | cons data chunks ih =>
    have first : readChunk (write (data :: chunks)) = some (data, write chunks) := by
      rw [← readChunk_chunk data (write chunks), write, List.flatMap_cons, List.append_assoc]
      rfl
    have shorter : (write chunks).length < (write (data :: chunks)).length := by
      have positive := chunk_length_pos data
      simp only [write, List.flatMap_cons, List.length_append]
      omega
    obtain ⟨a, others, rfl⟩ := List.exists_cons_of_ne_nil (full data (.head _))
    rw [read?, first]
    simp only [List.isEmpty_cons, Bool.false_eq_true, if_false, shorter, if_true,
      ih fun data member => full data (.tail _ member)]
    rfl

end Chunked

namespace EventStream

theorem writeParts_stays (sent : Nat) (parts : List Bytes) :
    (writeParts none sent parts).bytes = parts.flatten ∧
      (writeParts none sent parts).result = .ok () := by
  induction parts generalizing sent with
  | nil => exact ⟨rfl, rfl⟩
  | cons part parts ih =>
    have rest := ih (sent + part.length)
    exact ⟨congrArg (part ++ ·) rest.1, rest.2⟩

theorem write_stays (events : List Event) :
    (write none events).bytes = bytesOf head ++ Chunked.write (events.map Event.encode) ∧
      (write none events).result = .ok () := by
  have all := writeParts_stays 0 (parts events)
  refine ⟨?_, all.2⟩
  rw [write, all.1, parts, Chunked.write, List.flatMap_def, List.map_map, List.flatten_append,
    List.flatten_cons, List.flatten_singleton, List.append_assoc]
  rfl

theorem read?_events (events : List Event) :
    Chunked.read? (Chunked.write (events.map Event.encode)) = some (events.map Event.encode) := by
  refine Chunked.read?_write _ fun data member => ?_
  obtain ⟨e, _, rfl⟩ := List.mem_map.mp member
  exact e.encode_ne_nil

def body? (response : Bytes) : Option Bytes :=
  if (bytesOf head).isPrefixOf response then
    (Chunked.read? (response.drop (bytesOf head).length)).map List.flatten
  else none

theorem body?_write (events : List Event) :
    body? (write none events).bytes = some (events.flatMap Event.encode) := by
  have front : (bytesOf head).isPrefixOf (write none events).bytes = true := by
    rw [(write_stays events).1, List.isPrefixOf_iff_prefix]
    exact List.prefix_append _ _
  rw [body?, if_pos front, (write_stays events).1, List.drop_left, read?_events, Option.map_some,
    List.flatMap_def]

end EventStream

end ControlPlane
