import ControlPlane.Proofs.Event.Reader
import ControlPlane.Proofs.Text.Blank
import ControlPlane.Proofs.Text.Utf8
import Mathlib.Algebra.GroupWithZero.Nat
-- Asking for one item after another, a line at a time, yields the items of the whole
-- input and comes to an end.
namespace ControlPlane

namespace EventReader

variable {words : Json.Words}

theorem lineItem_newline (line : Bytes) :
    lineItem words (line ++ [10]) = lineItem words line := by
  unfold lineItem
  rw [Utf8.decode?_newline]
  cases Utf8.decode? line with
  | none => rfl
  | some text => simp only [Option.map_some, trimList_newline]

def Source.items (words : Json.Words) (s : Source) : List Item :=
  EventReader.items words (.piece s.left :: s.reads)

theorem splits_newline {left rest : Bytes} {b : UInt8}
    (found : left.dropWhile (· ≠ 10) = b :: rest) :
    b = 10 ∧ 10 ∉ left.takeWhile (· ≠ 10) ∧ left = left.takeWhile (· ≠ 10) ++ 10 :: rest := by
  have newline : b = 10 := by simpa using head_dropWhile found
  subst newline
  refine ⟨rfl, ?_, ?_⟩
  · intro member
    simpa using List.mem_takeWhile_imp member
  · conv_lhs => rw [← List.takeWhile_append_dropWhile (p := (· ≠ 10)) (l := left), found]

theorem noNewline {left : Bytes} (none : left.dropWhile (· ≠ 10) = []) : 10 ∉ left := by
  intro member
  simpa using List.dropWhile_eq_nil_iff.1 none 10 member

theorem feed_open_line {line part : Bytes} (inside : 10 ∉ part) :
    feed words line.reverse part = ([], (line ++ part).reverse) := by
  have opened : feed words line.reverse (part ++ []) = _ := feed_open line.reverse part [] inside
  rwa [List.append_nil, ← List.reverse_append] at opened

theorem lastItem_newline (line : Bytes) :
    lastItem words (line ++ [10]).reverse = (lineItem words line).toList := by
  have some : (line ++ [10]).reverse.isEmpty = false := by simp
  rw [lastItem, some, List.reverse_reverse, lineItem_newline]
  rfl

-- What the line and the octets in front of the reads come to is the item of the next line,
-- or the failure that cuts it short, and then the items of the rest.
theorem itemsFrom_takeLine (line left : Bytes) (reads : List Read) :
    itemsFrom words line.reverse (.piece left :: reads) =
      match takeLine line left reads with
      | (.error detail, rest) => .error (.broken detail) :: rest.items words
      | (.ok taken, rest) => lastItem words taken.reverse ++ rest.items words := by
  fun_induction takeLine line left reads with
  | case1 reads line left b rest found =>
    obtain ⟨_, inside, split⟩ := splits_newline found
    have whole : feed words line.reverse left =
        feed words (line ++ left.takeWhile (· ≠ 10)).reverse (10 :: rest) := by
      conv_lhs => rw [split, feed_open _ _ _ inside, ← List.reverse_append]
    rw [itemsFrom, whole, feed, if_pos rfl, List.reverse_reverse]
    dsimp only
    rw [lastItem_newline, List.append_assoc]
    rfl
  | case2 line left none =>
    rw [itemsFrom, feed_open_line (noNewline none)]
    exact (List.append_nil _).symm
  | case3 line left none bytes reads ih =>
    rw [itemsFrom, feed_open_line (noNewline none)]
    exact ih
  | case4 line left none reads ih =>
    rw [itemsFrom, feed_open_line (noNewline none)]
    exact ih
  | case5 line left none detail reads =>
    rw [itemsFrom, feed_open_line (noNewline none)]
    rfl

def Source.size (s : Source) : Nat :=
  s.left.length + (s.reads.map fun read => read.brought.length + 1).sum

theorem size_takeLine (line left : Bytes) (reads : List Read) :
    match takeLine line left reads with
    | (.error _, rest) => rest.size < (Source.mk left reads).size
    | (.ok taken, rest) => taken.length + rest.size ≤ line.length + (Source.mk left reads).size := by
  fun_induction takeLine line left reads with
  | case1 reads line left b rest found =>
    obtain ⟨_, _, split⟩ := splits_newline found
    have whole := congrArg List.length split
    simp only [List.length_append, List.length_cons, List.length_nil, Source.size] at whole ⊢
    omega
  | case2 => simp [Source.size]
  | case3 line left none bytes reads ih =>
    simp only [Source.size, List.map_cons, List.sum_cons, Read.brought, List.length_append] at ih ⊢
    split at ih <;> omega
  | case4 line left none reads ih =>
    simp only [Source.size, List.map_cons, List.sum_cons, Read.brought, List.length_append,
      List.length_nil] at ih ⊢
    split at ih <;> omega
  | case5 line left none detail reads =>
    simp only [Source.size, List.map_cons, List.sum_cons, Read.brought, List.length_nil]
    omega

theorem takeLine_nil {line left : Bytes} {reads : List Read}
    (none : (takeLine line left reads).1 = .ok []) : (takeLine line left reads).2 = ⟨[], []⟩ := by
  fun_induction takeLine line left reads with
  | case1 => simp at none
  | case2 => rfl
  | case3 _ _ _ _ _ ih => exact ih none
  | case4 _ _ _ _ ih => exact ih none
  | case5 => cases none

inductive Turned (words : Json.Words) (s : Source) : Turn → Prop where
  | ended (none : s.items words = []) : Turned words s .ended
  | skipped {rest : Source} (same : s.items words = rest.items words) (less : rest.size < s.size) :
      Turned words s (.skipped rest)
  | found {item : Item} {rest : Source} (next : s.items words = item :: rest.items words)
      (less : rest.size < s.size) : Turned words s (.found item rest)

theorem turned (s : Source) : Turned words s (turn words s) := by
  have next : s.items words = _ := itemsFrom_takeLine [] s.left s.reads
  have size := size_takeLine [] s.left s.reads
  unfold turn
  cases taken : takeLine [] s.left s.reads with
  | mk line rest =>
    rw [taken] at next size
    cases line with
    | error detail => exact .found next size
    | ok line =>
      cases line with
      | nil =>
        have none : rest = ⟨[], []⟩ := by
          have ends := takeLine_nil (congrArg Prod.fst taken)
          rwa [taken] at ends
        subst none
        exact .ended next
      | cons b line =>
        have less : rest.size < s.size := by
          have counted : line.length + 1 + rest.size ≤ 0 + s.size := size
          omega
        have kept : lastItem words (b :: line).reverse =
            (lineItem words (b :: line)).toList := by
          rw [lastItem, List.reverse_reverse]
          simp
        dsimp only at next ⊢
        rw [kept] at next
        cases item : lineItem words (b :: line) with
        | none =>
          rw [item] at next
          exact .skipped next less
        | some read =>
          rw [item] at next
          exact .found next less

inductive Iterates (words : Json.Words) : Source → List Item → Prop where
  | ended {s : Source} (turned : turn words s = .ended) : Iterates words s []
  | skipped {s rest : Source} {items : List Item} (turned : turn words s = .skipped rest)
      (later : Iterates words rest items) : Iterates words s items
  | found {s rest : Source} {item : Item} {items : List Item}
      (turned : turn words s = .found item rest) (later : Iterates words rest items) :
      Iterates words s (item :: items)

theorem Iterates.items {s : Source} {items : List Item} (iterates : Iterates words s items) :
    items = s.items words := by
  induction iterates with
  | @ended s ended =>
    have turn : Turned words s _ := turned s
    rw [ended] at turn
    obtain ⟨none⟩ := turn
    exact none.symm
  | @skipped s rest items skipped _ ih =>
    have turn : Turned words s _ := turned s
    rw [skipped] at turn
    obtain _ | ⟨same, _⟩ := turn
    rw [same, ih]
  | @found s rest item items found _ ih =>
    have turn : Turned words s _ := turned s
    rw [found] at turn
    obtain _ | _ | ⟨next, _⟩ := turn
    rw [next, ih]

theorem iterates_items (s : Source) : Iterates words s (s.items words) := by
  have turn : Turned words s _ := turned s
  generalize result : EventReader.turn words s = t at turn
  cases turn with
  | ended none =>
    rw [none]
    exact .ended result
  | skipped same less =>
    rw [same]
    exact .skipped result (iterates_items _)
  | found next less =>
    rw [next]
    exact .found result (iterates_items _)
termination_by s.size

theorem iterates_iff {s : Source} {items : List Item} :
    Iterates words s items ↔ items = s.items words :=
  ⟨Iterates.items, fun same => same ▸ iterates_items s⟩

end EventReader

end ControlPlane
