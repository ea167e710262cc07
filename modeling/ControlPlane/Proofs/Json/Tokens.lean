import ControlPlane.Json.Printer
import ControlPlane.Proofs.Json.Grammar
import Mathlib.Data.List.Forall2
-- Strings and numbers are written in the way of the grammar.
namespace ControlPlane.Json

-- What the written form of a character stands for. A control character without a letter of
-- its own comes back as a unit.
inductive Reads : Char → Element → Prop where
  | char (c : Char) : Reads c (.char c)
  | unit {c : Char} (control : c.toNat < 0x20) : Reads c (.unit c.toNat)

theorem hexValue?_hexDigit : ∀ n < 16, hexValue? (hexDigit n) = some n := by decide

theorem hexUnit?_control (n : Nat) (small : n < 0x20) :
    hexUnit? '0' '0' (hexDigit (n / 16)) (hexDigit (n % 16)) = some n := by
  have zero : hexValue? '0' = some 0 := by decide
  have high := hexValue?_hexDigit (n / 16) (by omega)
  have low := hexValue?_hexDigit (n % 16) (by omega)
  simp only [hexUnit?, zero, high, low, Option.bind_eq_bind, Option.bind_some, Option.some.injEq]
  omega

theorem spells_escapeChar (c : Char) : ∃ e, Reads c e ∧ ∀ {s es}, SpellsElements s es →
    SpellsElements (escapeChar c ++ s) (e :: es) := by
  have short : ∀ e, shortEscape? e = some c → ∃ e', Reads c e' ∧ ∀ {s es}, SpellsElements s es →
      SpellsElements (['\\', e] ++ s) (e' :: es) :=
    fun e letter => ⟨_, .char c, fun rest => .escape letter rest⟩
  unfold escapeChar
  split
  · exact short '"' (by simp [shortEscape?, *])
  split
  · exact short '\\' (by simp [shortEscape?, *])
  split
  · exact short 'n' (by simp [shortEscape?, *])
  split
  · exact short 't' (by simp [shortEscape?, *])
  split
  · exact short 'r' (by simp [shortEscape?, *])
  split
  · exact short 'b' (by simp [shortEscape?, *])
  split
  · exact short 'f' (by simp [shortEscape?, *])
  split
  · rename_i control
    exact ⟨_, .unit control, fun rest => .unit (hexUnit?_control c.toNat control) rest⟩
  · rename_i quoted escaped _ _ _ _ _ printable
    exact ⟨_, .char c, fun rest => .plain quoted escaped (Nat.not_lt.1 printable) rest⟩

theorem spells_escaped (cs : List Char) : ∃ es, List.Forall₂ Reads cs es ∧
    SpellsElements (cs.flatMap escapeChar) es := by
  induction cs with
  | nil => exact ⟨[], .nil, .nil⟩
  | cons c cs ih =>
    obtain ⟨es, reads, rest⟩ := ih
    obtain ⟨e, read, first⟩ := spells_escapeChar c
    exact ⟨e :: es, .cons read reads, first rest⟩

theorem joinUnits_char (c : Char) (es : List Element) :
    joinUnits (.char c :: es) = (joinUnits es).map (c :: ·) := by
  rw [joinUnits]

theorem joinUnits_control (c : Char) (es : List Element) (control : c.toNat < 0x20) :
    joinUnits (.unit c.toNat :: es) = (joinUnits es).map (c :: ·) := by
  have high : isHigh c.toNat = false := by
    simp only [isHigh, Bool.and_eq_false_iff, decide_eq_false_iff_not]
    omega
  have low : isLow c.toNat = false := by
    simp only [isLow, Bool.and_eq_false_iff, decide_eq_false_iff_not]
    omega
  rcases es with _ | ⟨_ | _, es⟩ <;> simp [joinUnits, high, low, Char.ofNat_toNat]

theorem joinUnits_reads {cs : List Char} {es : List Element} (reads : List.Forall₂ Reads cs es) :
    joinUnits es = some cs := by
  induction reads with
  | nil => rfl
  | cons read _ ih =>
    cases read with
    | char => rw [joinUnits_char, ih, Option.map_some]
    | unit control => rw [joinUnits_control _ _ control, ih, Option.map_some]

theorem quote_none : quote none = ['"', '\\', 'u', 'd', '8', '0', '0', '"'] := rfl

theorem quote_some (s : String) :
    quote (some s) = '"' :: (s.toList.flatMap escapeChar ++ ['"']) := rfl

theorem spells_quote (t : Text) : SpellsText (quote t) t := by
  rcases t with _ | s
  · have half : SpellsElements ['\\', 'u', 'd', '8', '0', '0'] [.unit 0xD800] :=
      .unit (by decide) .nil
    exact .quoted half
  · obtain ⟨es, reads, elements⟩ := spells_escaped s.toList
    have text := SpellsText.quoted elements
    rwa [joinUnits_reads reads, Option.map_some, String.ofList_toList] at text

theorem isDigit_of_mem (n : Nat) : ∀ c ∈ digits n, Char.isDigit c :=
  fun _ => Nat.isDigit_of_mem_toDigits (by decide) (by decide)

theorem digits_ne_nil (n : Nat) : digits n ≠ [] := Nat.toDigits_ne_nil

theorem digits_leading (n : Nat) (positive : 0 < n) : ∃ c cs, digits n = c :: cs ∧ c ≠ '0' := by
  induction n using Nat.strongRecOn with
  | ind n ih =>
    by_cases small : n < 10
    · refine ⟨n.digitChar, [], Nat.toDigits_of_lt_base small, ?_⟩
      exact (show ∀ m < 10, 0 < m → m.digitChar ≠ '0' by decide) n small positive
    · obtain ⟨c, cs, leading, nonzero⟩ := ih (n / 10) (by omega) (by omega)
      refine ⟨c, cs ++ [(n % 10).digitChar], ?_, nonzero⟩
      rw [digits, Nat.toDigits_of_base_le (by decide) (by omega), ← digits, leading]
      rfl

theorem whole_digits (n : Nat) : Whole (digits n) where
  some := digits_ne_nil n
  all := isDigit_of_mem n
  leading := by
    intro c cs padded
    rcases Nat.eq_zero_or_pos n with rfl | positive
    · cases padded
    · obtain ⟨d, ds, leading, nonzero⟩ := digits_leading n positive
      rw [leading] at padded
      cases padded
      exact nonzero rfl

theorem digitsValue_digits (n : Nat) : digitsValue (digits n) = n := Nat.ofDigitChars_ten_toDigits

theorem spells_sign (negative : Bool) : SpellsSign (if negative then ['-'] else []) negative := by
  cases negative with
  | true => exact .minus
  | false => exact .none

theorem spells_exponent (e : Int) :
    SpellsExponent ((if e < 0 then ['-'] else []) ++ digits e.natAbs) e := by
  have all := (whole_digits e.natAbs).toDigits
  have value := digitsValue_digits e.natAbs
  by_cases negative : e < 0
  · have written := SpellsExponent.minus all
    have back : -(digitsValue (digits e.natAbs) : Int) = e := by omega
    rw [if_pos negative]
    rwa [back] at written
  · have written := SpellsExponent.bare all
    have back : (digitsValue (digits e.natAbs) : Int) = e := by omega
    rw [if_neg negative]
    rwa [back] at written

theorem spells_number (n : Number) : SpellsNumber n.print n := by
  cases n with
  | whole negative n =>
    have number := SpellsNumber.parts (spells_sign negative) (whole_digits n) .none .none
    rwa [Number.ofParts, digitsValue_digits, List.append_nil, List.append_nil] at number
  | decimal negative m e =>
    have number := SpellsNumber.parts (spells_sign negative) (whole_digits m) .none
      (.small (spells_exponent e))
    simpa [Number.ofParts, digitsValue_digits, Number.print] using number

end ControlPlane.Json
