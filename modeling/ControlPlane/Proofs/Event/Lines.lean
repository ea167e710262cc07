import ControlPlane.Proofs.Event.Iteration
-- The items of an input are those of its lines.
namespace ControlPlane

namespace EventReader

variable {words : Json.Words}

def lastItems (words : Json.Words) (body : Bytes) : List Item :=
  (body.splitOn 10).filterMap (lineItem words)

def brokenItems (words : Json.Words) (part : Bytes × String) : List Item :=
  (part.1.splitOn 10).dropLast.filterMap (lineItem words) ++ [.error (.broken part.2)]

-- The parts into which the failures cut the reads, each with its failure, and the last one.
inductive Cut : List Read → List (Bytes × String) → Bytes → Prop where
  | last {reads : List Read} {body : Bytes} (brings : Brings reads body) : Cut reads [] body
  | failure {front reads : List Read} {body last : Bytes} {detail : String}
      {broken : List (Bytes × String)} (brings : Brings front body)
      (later : Cut reads broken last) :
      Cut (front ++ .failed detail :: reads) ((body, detail) :: broken) last

-- What a line stands for. A blank one stands for nothing.
inductive Stands (words : Json.Words) (line : Bytes) : Option Item → Prop where
  | illFormed (none : ∀ text, Utf8.encode text ≠ line) :
      Stands words line (some (.error (.malformed "exec event is not valid UTF-8")))
  | blank {text : List Char} (spelled : Utf8.encode text = line) (blank : AllBlank text) :
      Stands words line none
  | event {front text back : List Char} (spelled : Utf8.encode (front ++ text ++ back) = line)
      (before : AllBlank front) (behind : AllBlank back) (solid : IsSolid text) :
      Stands words line (some (Event.decode words text))

theorem lineItem_encode (text : List Char) : lineItem words (Utf8.encode text) =
    if (trimList text).isEmpty then none else some (Event.decode words (trimList text)) := by
  rw [lineItem, Utf8.decode?_encode]

theorem lineItem_of_stands {line : Bytes} {item : Option Item} (stands : Stands words line item) :
    lineItem words line = item := by
  cases stands with
  | illFormed none =>
    have unread : Utf8.decode? line = Option.none := by
      cases read : Utf8.decode? line with
      | none => rfl
      | some text => exact absurd (Utf8.decode?_eq_some.1 read) (none text)
    rw [lineItem, unread]
  | blank spelled blank =>
    rw [← spelled, lineItem_encode, trimList_blank blank]
    rfl
  | event spelled before behind solid =>
    rw [← spelled, lineItem_encode, trimList_wrapped before behind solid, if_neg]
    simpa using solid.ne_nil

theorem exists_stands (line : Bytes) : ∃ item, Stands words line item := by
  cases read : Utf8.decode? line with
  | none =>
    refine ⟨_, .illFormed ?_⟩
    intro text spelled
    rw [Utf8.decode?_eq_some.2 spelled] at read
    cases read
  | some text =>
    have spelled := Utf8.decode?_eq_some.1 read
    rcases blank_or_wrapped text with blank | ⟨front, inner, back, rfl, before, behind, solid⟩
    · exact ⟨_, .blank spelled blank⟩
    · exact ⟨_, .event spelled before behind solid⟩

theorem stands_iff {line : Bytes} {item : Option Item} :
    Stands words line item ↔ lineItem words line = item := by
  refine ⟨lineItem_of_stands, ?_⟩
  rintro rfl
  obtain ⟨item, stands⟩ := exists_stands line
  rwa [lineItem_of_stands stands]

-- The unfinished line and the octets behind it are the lines that end and a new unfinished
-- one.
theorem feed_lines (line : Bytes) (inside : 10 ∉ line) (body : Bytes) : ∃ lines last,
    (line.reverse ++ body).splitOn 10 = lines ++ [last] ∧
      feed words line body = (lines.filterMap (lineItem words), last.reverse) := by
  induction body generalizing line with
  | nil =>
    refine ⟨[], line.reverse, ?_, by rw [List.reverse_reverse]; rfl⟩
    rw [List.append_nil, List.splitOn_eq_singleton (by simpa using inside)]
    rfl
  | cons b body ih =>
    by_cases newline : b = 10
    · subst newline
      obtain ⟨lines, last, split, fed⟩ := ih [] (by simp)
      refine ⟨line.reverse :: lines, last, ?_, ?_⟩
      · rw [List.splitOn_append_cons_self, List.splitOn_eq_singleton (by simpa using inside)]
        rw [List.reverse_nil, List.nil_append] at split
        rw [split]
        rfl
      · rw [feed, if_pos rfl, fed, List.filterMap_cons]
        cases lineItem words line.reverse <;> rfl
    · obtain ⟨lines, last, split, fed⟩ := ih (b :: line) (by simp [inside, Ne.symm newline])
      refine ⟨lines, last, ?_, by rw [feed, if_neg newline, fed]⟩
      rw [← split]
      simp

theorem lastItem_reverse (last : Bytes) :
    lastItem words last.reverse = [last].filterMap (lineItem words) := by
  cases last with
  | nil => rfl
  | cons b last =>
    have some : (b :: last).reverse.isEmpty = false := by simp
    rw [lastItem, some, List.reverse_reverse, List.filterMap_cons]
    cases lineItem words (b :: last) <;> rfl

theorem items_last {reads : List Read} {body : Bytes} (brings : Brings reads body) :
    items words reads = lastItems words body := by
  obtain ⟨lines, last, split, fed⟩ := feed_lines [] (by simp) body
  rw [List.reverse_nil, List.nil_append] at split
  rw [items, itemsFrom_unbroken [] reads brings, fed, lastItem_reverse, lastItems, split,
    List.filterMap_append]

theorem items_failure {front reads : List Read} {body : Bytes} {detail : String}
    (brings : Brings front body) : items words (front ++ .failed detail :: reads) =
      brokenItems words (body, detail) ++ items words reads := by
  obtain ⟨lines, last, split, fed⟩ := feed_lines [] (by simp) body
  rw [List.reverse_nil, List.nil_append] at split
  rw [items, itemsFrom_append [] front _ brings, fed, brokenItems, split, List.dropLast_concat,
    List.append_assoc]
  rfl

theorem items_cut {reads : List Read} {broken : List (Bytes × String)} {last : Bytes}
    (cut : Cut reads broken last) :
    items words reads = broken.flatMap (brokenItems words) ++ lastItems words last := by
  induction cut with
  | last brings => exact items_last brings
  | failure brings _ ih => rw [items_failure brings, ih, List.flatMap_cons, List.append_assoc]

end EventReader

theorem Brings.cons {read : Read} {reads : List Read} {body : Bytes}
    (unbroken : ∀ detail, read ≠ .failed detail) (brings : Brings reads body) :
    Brings (read :: reads) (read.brought ++ body) := by
  refine ⟨?_, by rw [List.flatMap_cons, brings.joined]⟩
  intro detail member
  rcases List.mem_cons.1 member with here | later
  · exact unbroken detail here.symm
  · exact brings.unbroken detail later

namespace EventReader

theorem Cut.cons {read : Read} {reads : List Read} (unbroken : ∀ detail, read ≠ .failed detail)
    (cuts : ∃ broken last, Cut reads broken last) : ∃ broken last, Cut (read :: reads) broken last := by
  obtain ⟨_, _, brings | ⟨brings, later⟩⟩ := cuts
  · exact ⟨_, _, .last (brings.cons unbroken)⟩
  · exact ⟨_, _, .failure (brings.cons unbroken) later⟩

theorem exists_cut (reads : List Read) : ∃ broken last, Cut reads broken last := by
  induction reads with
  | nil => exact ⟨_, _, .last ⟨by simp, rfl⟩⟩
  | cons read reads ih =>
    cases read with
    | piece bytes => exact Cut.cons (by simp) ih
    | interrupted => exact Cut.cons (by simp) ih
    | failed detail =>
      obtain ⟨_, _, cut⟩ := ih
      have nothing : Brings [] [] := ⟨by simp, rfl⟩
      exact ⟨_, _, .failure nothing cut⟩

theorem itemsFrom_newline (line : Bytes) (front rest : List Read) :
    itemsFrom words line (front ++ .piece [10] :: rest) =
      itemsFrom words line (front ++ [.piece [10]]) ++ items words rest := by
  induction front generalizing line with
  | nil =>
    simp only [List.nil_append, itemsFrom, feed, if_pos]
    simp [items]
  | cons read front ih =>
    cases read with
    | piece bytes => simp only [List.cons_append, itemsFrom, ih, List.append_assoc]
    | interrupted => exact ih line
    | failed detail => simp only [List.cons_append, itemsFrom, ih]

-- Asking for items until there are none ends, whatever the reads are. What is found are the
-- items of the lines, cut off where a read fails, and each line counts by itself.
theorem reads_lines (words : Json.Words) (reads : List Read) :
    (∃ broken last, Cut reads broken last) ∧
    (∀ broken last, Cut reads broken last → ∀ found, Iterates words ⟨[], reads⟩ found ↔
      found = broken.flatMap (brokenItems words) ++ lastItems words last) ∧
    (∀ line item, Stands words line item ↔ lineItem words line = item) ∧
    Iterates words ⟨[], reads⟩ (items words reads) ∧
    (∀ other broken last, Cut reads broken last → Cut other broken last →
      items words other = items words reads) ∧
    ∀ front rest, reads = front ++ .piece [10] :: rest →
      items words reads = items words (front ++ [.piece [10]]) ++ items words rest := by
  have start : (Source.mk [] reads).items words = items words reads := rfl
  refine ⟨exists_cut reads, ?_, fun _ _ => stands_iff, ?_, ?_, ?_⟩
  · intro broken last cut found
    rw [iterates_iff, start, items_cut cut]
  · exact iterates_items ⟨[], reads⟩
  · intro other broken last cut same
    rw [items_cut cut, items_cut same]
  · rintro front rest rfl
    exact itemsFrom_newline [] front rest

def mixed : List Read :=
  [.piece (bytesOf "\"sta"), .interrupted, .piece (bytesOf "rt\"\n \n\"st"), .failed "reset",
    .piece [255, 10], .piece (bytesOf " \"start\"")]

theorem reads_lines_mixed :
    Cut mixed [(bytesOf "\"start\"\n \n\"st", "reset")] ([255, 10] ++ bytesOf " \"start\"") ∧
      Iterates Json.wordless ⟨[], mixed⟩ [.ok .start, .error (.broken "reset"),
        .error (.malformed "exec event is not valid UTF-8"), .ok .start] := by
  have broken : Brings (mixed.take 3) (bytesOf "\"start\"\n \n\"st") :=
    ⟨by simp [mixed], by decide⟩
  have last : Brings (mixed.drop 4) ([255, 10] ++ bytesOf " \"start\"") :=
    ⟨by simp [mixed], by decide⟩
  have cut : Cut mixed _ _ := .failure broken (.last last)
  exact ⟨cut, ((reads_lines Json.wordless mixed).2.1 _ _ cut _).2 (by decide +kernel)⟩

end EventReader

end ControlPlane
