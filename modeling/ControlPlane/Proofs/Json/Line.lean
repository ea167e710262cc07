import ControlPlane.Proofs.Json.RoundTrip
import ControlPlane.Proofs.Text.Blank
-- A document is written on one line, with no blank at either end.
namespace ControlPlane.Json

def isPrintable (c : Char) : Bool := 0x20 ≤ c.toNat

theorem hexDigit_printable : ∀ n < 16, isPrintable (hexDigit n) = true := by decide

theorem escapeChar_printable (c : Char) : (escapeChar c).all isPrintable = true := by
  unfold escapeChar
  repeat (split; · rfl)
  split
  · rename_i control
    have high := hexDigit_printable (c.toNat / 16) (by omega)
    have low := hexDigit_printable (c.toNat % 16) (by omega)
    simp only [List.all_cons, high, low]
    rfl
  · rename_i printable
    simpa [isPrintable] using printable

theorem quote_printable (t : Text) : (quote t).all isPrintable = true := by
  rcases t with _ | s
  · rw [quote_none]
    rfl
  · rw [quote_some, List.all_cons, List.all_append, List.all_flatMap, Bool.and_eq_true,
      Bool.and_eq_true]
    exact ⟨rfl, List.all_eq_true.mpr fun c _ => escapeChar_printable c, rfl⟩

theorem digits_printable (n : Nat) : (digits n).all isPrintable = true := by
  refine List.all_eq_true.mpr fun c member => ?_
  have digit := isDigit_of_mem n c member
  simp only [Char.isDigit, Bool.and_eq_true, decide_eq_true_eq, ge_iff_le] at digit
  have low : 48 ≤ c.toNat := digit.1
  exact decide_eq_true (by omega)

theorem Number.print_printable (n : Number) : n.print.all isPrintable = true := by
  have sign : ∀ negative : Bool, (if negative then ['-'] else []).all isPrintable = true := by
    decide
  cases n with
  | whole negative n =>
    rw [print, List.all_append, sign, digits_printable]
    rfl
  | decimal negative m e =>
    have power : (if e < 0 then ['-'] else []).all isPrintable = true := by
      split <;> rfl
    rw [print, List.all_append, List.all_append, List.all_cons, List.all_append, sign, power,
      digits_printable, digits_printable]
    rfl

mutual
theorem print_printable : ∀ v : Value, v.print.all isPrintable = true
  | .null => rfl
  | .bool true => rfl
  | .bool false => rfl
  | .number n => n.print_printable
  | .string t => quote_printable t
  | .array [] => rfl
  | .array (v :: vs) => by
    simp only [Value.print, printItems, List.all_cons, List.all_append, print_printable v,
      moreItems_printable vs]
    rfl
  | .object [] => rfl
  | .object ((name, v) :: ms) => by
    simp only [Value.print, printMembers, List.all_cons, List.all_append, quote_printable name,
      print_printable v, moreMembers_printable ms]
    rfl

theorem moreItems_printable : ∀ vs : List Value, (printMoreItems vs).all isPrintable = true
  | [] => rfl
  | v :: vs => by
    simp only [printMoreItems, List.all_cons, List.all_append, print_printable v,
      moreItems_printable vs]
    rfl

theorem moreMembers_printable :
    ∀ ms : List (Text × Value), (printMoreMembers ms).all isPrintable = true
  | [] => rfl
  | (name, v) :: ms => by
    simp only [printMoreMembers, List.all_cons, List.all_append, quote_printable name,
      print_printable v, moreMembers_printable ms]
    rfl
end

theorem newline_notMem_print (v : Value) : '\n' ∉ v.print := by
  intro member
  have printable := List.all_eq_true.mp (print_printable v) _ member
  cases printable

theorem digits_end (n : Nat) : ∃ front c, digits n = front ++ [c] ∧ c.isDigit = true := by
  rcases List.eq_nil_or_concat (digits n) with empty | ⟨front, c, ends⟩
  · exact absurd empty (digits_ne_nil n)
  · rw [List.concat_eq_append] at ends
    exact ⟨front, c, ends, isDigit_of_mem n c (by rw [ends]; simp)⟩

theorem Number.print_ends (n : Number) :
    ∃ front c, n.print = front ++ [c] ∧ c.isDigit = true := by
  cases n with
  | whole negative n =>
    obtain ⟨front, c, ends, digit⟩ := digits_end n
    exact ⟨_, c, by rw [Number.print, ends, ← List.append_assoc], digit⟩
  | decimal negative m e =>
    obtain ⟨front, c, ends, digit⟩ := digits_end e.natAbs
    exact ⟨_, c, by rw [Number.print, ends, ← List.append_assoc, ← List.cons_append,
      ← List.append_assoc], digit⟩

theorem moreItems_end (vs : List Value) : ∃ front, printMoreItems vs = front ++ [']'] := by
  induction vs with
  | nil => exact ⟨[], rfl⟩
  | cons v vs ih =>
    obtain ⟨front, ends⟩ := ih
    exact ⟨',' :: (v.print ++ front), by rw [printMoreItems, ends]; simp⟩

theorem moreMembers_end (ms : List (Text × Value)) :
    ∃ front, printMoreMembers ms = front ++ ['}'] := by
  induction ms with
  | nil => exact ⟨[], rfl⟩
  | cons m ms ih =>
    obtain ⟨front, ends⟩ := ih
    exact ⟨',' :: (quote m.1 ++ ':' :: (m.2.print ++ front)), by
      rw [printMoreMembers, ends]; simp⟩

theorem not_isBlank_of_isFront {c : Char} (front : isFront c = true) : isBlank c = false := by
  have range : 0x21 ≤ c.toNat ∧ c.toNat < 0x7F := by
    simp only [isFront, Bool.or_eq_true, beq_iff_eq] at front
    rcases front with ((((((rfl | rfl) | rfl) | rfl) | rfl) | rfl) | rfl) | digit
    all_goals try decide
    simp only [Char.isDigit, Bool.and_eq_true, decide_eq_true_eq, ge_iff_le] at digit
    have low : 48 ≤ c.toNat := digit.1
    have high : c.toNat ≤ 57 := digit.2
    omega
  simp only [isBlank, Bool.or_eq_false_iff, Bool.and_eq_false_iff, decide_eq_false_iff_not,
    beq_eq_false_iff_ne]
  omega

theorem Value.print_ends (v : Value) : ∃ front c, v.print = front ++ [c] ∧ isBlank c = false := by
  cases v with
  | null => exact ⟨['n', 'u', 'l'], 'l', rfl, rfl⟩
  | bool b =>
    cases b with
    | true => exact ⟨['t', 'r', 'u'], 'e', rfl, rfl⟩
    | false => exact ⟨['f', 'a', 'l', 's'], 'e', rfl, rfl⟩
  | number n =>
    obtain ⟨front, c, ends, digit⟩ := n.print_ends
    exact ⟨front, c, ends, not_isBlank_of_isFront (isFront_of_isDigit digit)⟩
  | string t =>
    rcases t with _ | s
    · exact ⟨['"', '\\', 'u', 'd', '8', '0', '0'], '"', quote_none, rfl⟩
    · exact ⟨'"' :: s.toList.flatMap escapeChar, '"', quote_some s, rfl⟩
  | array items =>
    rcases items with _ | ⟨v, vs⟩
    · exact ⟨['['], ']', rfl, rfl⟩
    · obtain ⟨front, ends⟩ := moreItems_end vs
      exact ⟨'[' :: (v.print ++ front), ']', by simp [Value.print, printItems, ends], rfl⟩
  | object members =>
    rcases members with _ | ⟨m, ms⟩
    · exact ⟨['{'], '}', rfl, rfl⟩
    · obtain ⟨front, ends⟩ := moreMembers_end ms
      exact ⟨'{' :: (quote m.1 ++ ':' :: (m.2.print ++ front)), '}', by
        simp [Value.print, printMembers, ends], rfl⟩

theorem isSolid_print (v : Value) : IsSolid v.print := by
  obtain ⟨c, cs, begins, front⟩ := v.print_begins
  exact ⟨⟨c, cs, begins, not_isBlank_of_isFront front⟩, v.print_ends⟩

theorem trimList_print (v : Value) : trimList v.print = v.print := by
  have nothing : AllBlank [] := List.forall_mem_nil _
  have whole := trimList_wrapped nothing nothing (isSolid_print v)
  rwa [List.nil_append, List.append_nil] at whole

end ControlPlane.Json
