import Mathlib.Data.List.TakeWhile
import ControlPlane.Text.Blank
-- What trimming takes away and what it leaves.
namespace ControlPlane

theorem exists_dropTrailing {α : Type} (test : α → Bool) (l : List α) :
    ∃ tail, l = dropTrailing test l ++ tail ∧ ∀ a ∈ tail, test a = true := by
  refine ⟨(l.reverse.takeWhile test).reverse, ?_, ?_⟩
  · rw [dropTrailing, ← List.reverse_append, List.takeWhile_append_dropWhile,
      List.reverse_reverse]
  · intro a member
    have all : (l.reverse.takeWhile test).all test = true := List.all_takeWhile
    exact List.all_eq_true.1 all a (List.mem_reverse.1 member)

theorem head_dropWhile {α : Type} {test : α → Bool} {l rest : List α} {a : α}
    (left : l.dropWhile test = a :: rest) : test a = false := by
  have head := List.head?_dropWhile_not test l
  rw [left] at head
  simpa using head

theorem dropTrailing_ends {α : Type} {test : α → Bool} {l : List α}
    (some : dropTrailing test l ≠ []) :
    ∃ front a, dropTrailing test l = front ++ [a] ∧ test a = false := by
  unfold dropTrailing at some ⊢
  cases left : l.reverse.dropWhile test with
  | nil => exact absurd (by rw [left]; rfl) some
  | cons a rest => exact ⟨rest.reverse, a, List.reverse_cons, head_dropWhile left⟩

theorem dropTrailing_append {α : Type} {test : α → Bool} {tail : List α}
    (dropped : ∀ a ∈ tail, test a = true) (l : List α) :
    dropTrailing test (l ++ tail) = dropTrailing test l := by
  have reversed : ∀ a ∈ tail.reverse, test a = true := fun a member =>
    dropped a (List.mem_reverse.1 member)
  rw [dropTrailing, List.reverse_append, List.dropWhile_append_of_pos reversed]
  rfl

theorem trimSlashes_of_last {text : String} (last : text.toList.getLast? ≠ some '/') :
    trimSlashes text = text := by
  obtain ⟨tail, whole, slashes⟩ := exists_dropTrailing (· == '/') text.toList
  rcases List.eq_nil_or_concat tail with rfl | ⟨front, c, rfl⟩
  · rw [List.append_nil] at whole
    rw [trimSlashes, ← whole, String.ofList_toList]
  · rw [List.concat_eq_append] at whole slashes
    have slash : c = '/' := by simpa using slashes c (by simp)
    rw [whole, ← List.append_assoc, List.getLast?_concat, slash] at last
    exact absurd rfl last

theorem trimSlashes_eq {text front : String} {slashes : List Char}
    (whole : text.toList = front.toList ++ slashes) (all : ∀ c ∈ slashes, c = '/')
    (ends : front.toList.getLast? ≠ some '/') : trimSlashes text = front := by
  have dropped : ∀ c ∈ slashes, (c == '/') = true := fun c member => beq_iff_eq.2 (all c member)
  rw [trimSlashes, whole, dropTrailing_append dropped]
  exact trimSlashes_of_last ends

theorem exists_trimSlashes (text : String) : ∃ slashes, (∀ c ∈ slashes, c = '/') ∧
    text.toList = (trimSlashes text).toList ++ slashes ∧
      (trimSlashes text).toList.getLast? ≠ some '/' := by
  obtain ⟨tail, whole, slashes⟩ := exists_dropTrailing (· == '/') text.toList
  rw [trimSlashes, String.toList_ofList]
  refine ⟨tail, fun c member => by simpa using slashes c member, whole, fun last => ?_⟩
  have some : dropTrailing (· == '/') text.toList ≠ [] := by
    intro none
    rw [none] at last
    cases last
  obtain ⟨front, c, ends, other⟩ := dropTrailing_ends some
  rw [ends, List.getLast?_concat] at last
  cases last
  cases other

def AllBlank (cs : List Char) : Prop := ∀ c ∈ cs, isBlank c = true

structure IsSolid (cs : List Char) : Prop where
  begins : ∃ c rest, cs = c :: rest ∧ isBlank c = false
  ends : ∃ front c, cs = front ++ [c] ∧ isBlank c = false

theorem IsSolid.ne_nil {cs : List Char} (solid : IsSolid cs) : cs ≠ [] := by
  obtain ⟨c, rest, rfl, _⟩ := solid.begins
  exact List.cons_ne_nil c rest

theorem isSolid_iff {cs : List Char} : IsSolid cs ↔ cs ≠ [] ∧
    (∀ c, cs.head? = some c → isBlank c = false) ∧
    ∀ c, cs.getLast? = some c → isBlank c = false := by
  constructor
  · intro solid
    obtain ⟨first, rest, begins, other⟩ := solid.begins
    obtain ⟨front, last, ends, another⟩ := solid.ends
    refine ⟨solid.ne_nil, ?_, ?_⟩
    · intro c head
      rw [begins] at head
      cases head
      exact other
    · intro c final
      rw [ends, List.getLast?_concat] at final
      cases final
      exact another
  · rintro ⟨filled, head, last⟩
    refine ⟨⟨cs.head filled, cs.tail, (List.cons_head_tail filled).symm, ?_⟩,
      ⟨cs.dropLast, cs.getLast filled, (List.dropLast_concat_getLast filled).symm, ?_⟩⟩
    · exact head _ (List.head?_eq_some_head filled)
    · exact last _ (List.getLast?_eq_some_getLast filled)

theorem AllBlank.append {a b : List Char} (left : AllBlank a) (right : AllBlank b) :
    AllBlank (a ++ b) := by
  intro c member
  rcases List.mem_append.1 member with first | second
  · exact left c first
  · exact right c second

theorem isBlankText_iff {s : String} : isBlankText s = true ↔ AllBlank s.toList :=
  List.all_eq_true

theorem dropWhile_blank {front : List Char} (blank : AllBlank front) {c : Char} {rest : List Char}
    (solid : isBlank c = false) : (front ++ c :: rest).dropWhile isBlank = c :: rest := by
  rw [List.dropWhile_append_of_pos blank, List.dropWhile_cons, solid]
  rfl

theorem trimList_blank {cs : List Char} (blank : AllBlank cs) : trimList cs = [] := by
  have none : cs.dropWhile isBlank = [] := List.dropWhile_eq_nil_iff.2 blank
  rw [trimList, none]
  rfl

theorem trimList_wrapped {front text back : List Char} (before : AllBlank front)
    (behind : AllBlank back) (solid : IsSolid text) : trimList (front ++ text ++ back) = text := by
  obtain ⟨c, rest, begins, first⟩ := solid.begins
  obtain ⟨inner, d, ends, last⟩ := solid.ends
  have dropped : (front ++ text ++ back).dropWhile isBlank = text ++ back := by
    rw [begins, List.append_assoc, List.cons_append, dropWhile_blank before first]
  have reversed : (text ++ back).reverse = back.reverse ++ d :: inner.reverse := by
    rw [ends]
    simp
  have blank : AllBlank back.reverse := fun c member => behind c (List.mem_reverse.1 member)
  rw [trimList, dropped, dropTrailing, reversed, dropWhile_blank blank last, ends]
  simp

theorem blank_or_wrapped (cs : List Char) : AllBlank cs ∨
    ∃ front text back, cs = front ++ text ++ back ∧ AllBlank front ∧ AllBlank back ∧
      IsSolid text := by
  have front : AllBlank (cs.takeWhile isBlank) :=
    List.all_eq_true.1 List.all_takeWhile
  have whole : cs.takeWhile isBlank ++ cs.dropWhile isBlank = cs := List.takeWhile_append_dropWhile
  cases rest : cs.dropWhile isBlank with
  | nil => exact .inl (List.dropWhile_eq_nil_iff.1 rest)
  | cons c tail =>
    have first : isBlank c = false := head_dropWhile rest
    obtain ⟨back, split, blank⟩ := exists_dropTrailing isBlank (c :: tail)
    refine .inr ⟨_, dropTrailing isBlank (c :: tail), back, ?_, front, blank, ?_⟩
    · rw [List.append_assoc, ← split, ← rest, whole]
    · cases kept : dropTrailing isBlank (c :: tail) with
      | nil =>
        rw [kept] at split
        have clash := blank c (by rw [← List.nil_append back, ← split]; exact .head _)
        rw [first] at clash
        cases clash
      | cons d inner =>
        rw [kept] at split
        cases split
        exact ⟨⟨c, inner, rfl, first⟩, kept ▸ dropTrailing_ends (by rw [kept]; simp)⟩

theorem trimList_newline (text : List Char) : trimList (text ++ ['\n']) = trimList text := by
  have newline : AllBlank ['\n'] := by simp [AllBlank]; decide
  rcases blank_or_wrapped text with blank | ⟨front, solid, back, rfl, before, behind, is⟩
  · rw [trimList_blank blank, trimList_blank (blank.append newline)]
  · rw [trimList_wrapped before behind is, List.append_assoc _ back,
      trimList_wrapped before (behind.append newline) is]

end ControlPlane
