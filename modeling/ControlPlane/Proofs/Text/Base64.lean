import ControlPlane.Base64
import Mathlib.Algebra.GroupWithZero.Nat
-- Octets written in base64 are read back, and no other texts are read than the ones that
-- octets are written as: a text is read exactly if it is regular.
namespace ControlPlane.Base64

theorem value?_letter : ∀ n < 64, value? (letter n) = some n := by decide

theorem letter_ne_pad : ∀ n < 64, letter n ≠ '=' := by decide

theorem ofNat_eq {n : Nat} {a : UInt8} (same : n = a.toNat) : UInt8.ofNat n = a := by
  rw [same, UInt8.ofNat_toNat]

theorem fullGroup_letters (a b c : UInt8) :
    fullGroup (letter (a.toNat / 4)) (letter (a.toNat % 4 * 16 + b.toNat / 16))
      (letter (b.toNat % 16 * 4 + c.toNat / 64)) (letter (c.toNat % 64)) = some [a, b, c] := by
  have boundA := a.toNat_lt
  have boundB := b.toNat_lt
  have boundC := c.toNat_lt
  rw [fullGroup, value?_letter _ (by omega), value?_letter _ (by omega), value?_letter _ (by omega),
    value?_letter _ (by omega)]
  simp only [Option.bind_eq_bind, Option.bind_some]
  rw [@ofNat_eq _ a (by omega), @ofNat_eq _ b (by omega), @ofNat_eq _ c (by omega)]

theorem decode?_full {w x y z : Char} (unpadded : z ≠ '=') (rest : List Char) :
    decode? (w :: x :: y :: z :: rest) =
      (fullGroup w x y z).bind fun group => (decode? rest).map fun others => group ++ others := by
  cases rest with
  | nil =>
    have whole : decode? [w, x, y, z] = fullGroup w x y z := by
      rw [decode?, lastGroup, fullGroup]
      simp only [unpadded, if_false]
    rw [whole]
    cases fullGroup w x y z with
    | none => rfl
    | some group => simp [decode?]
  | cons v rest =>
    rw [decode?.eq_3 _ _ _ _ _ (List.cons_ne_nil _ _)]
    cases fullGroup w x y z with
    | none => rfl
    | some group => cases decode? (v :: rest) <;> rfl

theorem decode?_encode (data : Bytes) : decode? (encode data) = some data := by
  fun_induction encode data with
  | case1 => rfl
  | case2 a =>
    have bound := a.toNat_lt
    rw [decode?, lastGroup, value?_letter _ (by omega), value?_letter _ (by omega)]
    simp only [Option.bind_eq_bind, Option.bind_some, if_true]
    rw [if_pos (by omega), @ofNat_eq _ a (by omega)]
  | case3 a b =>
    have boundA := a.toNat_lt
    have boundB := b.toNat_lt
    have unpadded := letter_ne_pad (b.toNat % 16 * 4) (by omega)
    rw [decode?, lastGroup, value?_letter _ (by omega), value?_letter _ (by omega),
      value?_letter _ (by omega)]
    simp only [Option.bind_eq_bind, Option.bind_some, if_true, unpadded, if_false]
    rw [if_pos (by omega), @ofNat_eq _ a (by omega), @ofNat_eq _ b (by omega)]
  | case4 a b c rest ih =>
    have bound := c.toNat_lt
    rw [decode?_full (letter_ne_pad _ (by omega)), fullGroup_letters, ih]
    rfl

theorem letter_value {c : Char} {n : Nat} (value : value? c = some n) : letter n = c ∧ n < 64 := by
  unfold value? at value
  dsimp only at value
  have self : Char.ofNat c.toNat = c := Char.ofNat_toNat c
  split at value
  · cases value
    rw [letter, if_pos (by omega), show 65 + (c.toNat - 65) = c.toNat by omega]
    exact ⟨self, by omega⟩
  split at value
  · cases value
    rw [letter, if_neg (by omega), if_pos (by omega), show 71 + (c.toNat - 71) = c.toNat by omega]
    exact ⟨self, by omega⟩
  split at value
  · cases value
    rw [letter, if_neg (by omega), if_neg (by omega), if_pos (by omega), Nat.add_sub_cancel]
    exact ⟨self, by omega⟩
  split at value
  · cases value
    rename_i plus
    exact ⟨plus.symm, by omega⟩
  split at value
  · cases value
    rename_i slash
    exact ⟨slash.symm, by omega⟩
  · cases value

theorem letters_three {a b c d : Nat} (boundA : a < 64) (boundB : b < 64) (boundC : c < 64)
    (boundD : d < 64) (rest : Bytes) :
    encode (UInt8.ofNat (a * 4 + b / 16) :: UInt8.ofNat (b % 16 * 16 + c / 4) ::
      UInt8.ofNat (c % 4 * 64 + d) :: rest) =
      letter a :: letter b :: letter c :: letter d :: encode rest := by
  have first : (a * 4 + b / 16) % 2 ^ 8 / 4 = a := by omega
  have second : (a * 4 + b / 16) % 2 ^ 8 % 4 * 16 + (b % 16 * 16 + c / 4) % 2 ^ 8 / 16 = b := by
    omega
  have third : (b % 16 * 16 + c / 4) % 2 ^ 8 % 16 * 4 + (c % 4 * 64 + d) % 2 ^ 8 / 64 = c := by
    omega
  have fourth : (c % 4 * 64 + d) % 2 ^ 8 % 64 = d := by omega
  simp only [encode, UInt8.toNat_ofNat', first, second, third, fourth]

theorem letters_two {a b c : Nat} (boundA : a < 64) (boundB : b < 64) (boundC : c < 64)
    (clear : c % 4 = 0) :
    encode [UInt8.ofNat (a * 4 + b / 16), UInt8.ofNat (b % 16 * 16 + c / 4)] =
      [letter a, letter b, letter c, '='] := by
  have first : (a * 4 + b / 16) % 2 ^ 8 / 4 = a := by omega
  have second : (a * 4 + b / 16) % 2 ^ 8 % 4 * 16 + (b % 16 * 16 + c / 4) % 2 ^ 8 / 16 = b := by
    omega
  have third : (b % 16 * 16 + c / 4) % 2 ^ 8 % 16 * 4 = c := by omega
  simp only [encode, UInt8.toNat_ofNat', first, second, third]

theorem letters_one {a b : Nat} (boundA : a < 64) (boundB : b < 64) (clear : b % 16 = 0) :
    encode [UInt8.ofNat (a * 4 + b / 16)] = [letter a, letter b, '=', '='] := by
  have first : (a * 4 + b / 16) % 2 ^ 8 / 4 = a := by omega
  have second : (a * 4 + b / 16) % 2 ^ 8 % 4 * 16 = b := by omega
  simp only [encode, UInt8.toNat_ofNat', first, second]

theorem encode_fullGroup {w x y z : Char} {group : Bytes}
    (read : fullGroup w x y z = some group) (rest : Bytes) :
    encode (group ++ rest) = w :: x :: y :: z :: encode rest := by
  simp only [fullGroup, Option.bind_eq_bind, Option.bind_eq_some_iff, Option.some.injEq] at read
  obtain ⟨a, first, b, second, c, third, d, fourth, rfl⟩ := read
  obtain ⟨rfl, boundA⟩ := letter_value first
  obtain ⟨rfl, boundB⟩ := letter_value second
  obtain ⟨rfl, boundC⟩ := letter_value third
  obtain ⟨rfl, boundD⟩ := letter_value fourth
  exact letters_three boundA boundB boundC boundD rest

theorem encode_lastGroup {w x y z : Char} {group : Bytes}
    (read : lastGroup w x y z = some group) : encode group = [w, x, y, z] := by
  by_cases padded : z = '='
  · simp only [lastGroup, if_pos padded, Option.bind_eq_bind, Option.bind_eq_some_iff] at read
    obtain ⟨a, first, b, second, read⟩ := read
    obtain ⟨rfl, boundA⟩ := letter_value first
    obtain ⟨rfl, boundB⟩ := letter_value second
    split at read
    · rename_i twice
      split at read
      · rename_i clear
        cases read
        rw [letters_one boundA boundB clear, padded, twice]
      · cases read
    · obtain ⟨c, third, taken⟩ := Option.bind_eq_some_iff.1 read
      obtain ⟨rfl, boundC⟩ := letter_value third
      split at taken
      · rename_i clear
        cases taken
        rw [letters_two boundA boundB boundC clear, padded]
      · cases taken
  · have whole : fullGroup w x y z = some group := by
      simpa only [lastGroup, if_neg padded, fullGroup] using read
    simpa only [List.append_nil, encode] using encode_fullGroup whole []

theorem encode_of_decode? {t : List Char} {data : Bytes} (read : decode? t = some data) :
    t = encode data := by
  fun_induction decode? t generalizing data with
  | case1 =>
    cases read
    rfl
  | case2 w x y z => exact (encode_lastGroup read).symm
  | case3 w x y z rest more ih =>
    simp only [Option.bind_eq_bind, Option.bind_eq_some_iff, Option.some.injEq] at read
    obtain ⟨group, taken, others, later, rfl⟩ := read
    rw [encode_fullGroup taken, ← ih later]
  | case4 => cases read

theorem decode?_eq_some {t : List Char} {data : Bytes} :
    decode? t = some data ↔ t = encode data :=
  ⟨encode_of_decode?, fun same => same ▸ decode?_encode data⟩

-- The texts that octets are written as: letters by their values, and padding to whole groups
-- of four. Of the last letter, the bits that the padding takes the place of are zero.
inductive Regular : List Char → Prop where
  | padded (values : List Nat) (pad : Nat) (letters : ∀ n ∈ values, n < 64)
      (whole : 4 ∣ values.length + pad) (short : pad ≤ 2)
      (clear : ∀ n ∈ values.getLast?, 4 ^ pad ∣ n) :
      Regular (values.map letter ++ List.replicate pad '=')

theorem Regular.group {t : List Char} (regular : Regular t) {a b c d : Nat} (boundA : a < 64)
    (boundB : b < 64) (boundC : c < 64) (boundD : d < 64) :
    Regular (letter a :: letter b :: letter c :: letter d :: t) := by
  obtain ⟨values, pad, letters, whole, short, clear⟩ := regular
  refine .padded (a :: b :: c :: d :: values) pad ?_ ?_ short ?_
  · simp only [List.forall_mem_cons]
    exact ⟨boundA, boundB, boundC, boundD, letters⟩
  · simp only [List.length_cons]
    omega
  · intro n last
    cases values with
    | nil =>
      have none : pad = 0 := by
        simp only [List.length_nil] at whole
        omega
      rw [none]
      exact Nat.one_dvd n
    | cons e values => exact clear n (by simpa using last)

theorem regular_encode (data : Bytes) : Regular (encode data) := by
  fun_induction encode data with
  | case1 => exact .padded [] 0 (by simp) (by simp) (by omega) (by simp)
  | case2 a =>
    have bound := a.toNat_lt
    refine .padded [a.toNat / 4, a.toNat % 4 * 16] 2 ?_ (by simp) (Nat.le_refl 2) ?_
    · simp only [List.forall_mem_cons]
      exact ⟨by omega, by omega, nofun⟩
    · rintro n ⟨⟩
      exact Nat.dvd_mul_left _ _
  | case3 a b =>
    have boundA := a.toNat_lt
    have boundB := b.toNat_lt
    refine .padded [a.toNat / 4, a.toNat % 4 * 16 + b.toNat / 16, b.toNat % 16 * 4] 1 ?_ (by simp) (by omega) ?_
    · simp only [List.forall_mem_cons]
      exact ⟨by omega, by omega, by omega, nofun⟩
    · rintro n ⟨⟩
      exact Nat.dvd_mul_left _ _
  | case4 a b c rest ih =>
    have boundA := a.toNat_lt
    have boundB := b.toNat_lt
    have boundC := c.toNat_lt
    exact ih.group (by omega) (by omega) (by omega) (by omega)

-- By whole groups, until none or the one with the padding is left.
theorem exists_encode : ∀ (values : List Nat) {pad : Nat}, (∀ n ∈ values, n < 64) →
    4 ∣ values.length + pad → pad ≤ 2 → (∀ n ∈ values.getLast?, 4 ^ pad ∣ n) →
    ∃ data, encode data = values.map letter ++ List.replicate pad '='
  | [], pad, _, whole, short, _ => by
    obtain rfl : pad = 0 := by
      simp only [List.length_nil] at whole
      omega
    exact ⟨[], rfl⟩
  | [_], pad, _, whole, short, _ => by
    simp only [List.length_singleton] at whole
    omega
  | [a, b], pad, letters, whole, short, clear => by
    obtain rfl : pad = 2 := by
      simp only [List.length_cons, List.length_nil] at whole
      omega
    simp only [List.forall_mem_cons] at letters
    have zeros : b % 16 = 0 := Nat.mod_eq_zero_of_dvd (clear b rfl)
    exact ⟨_, letters_one letters.1 letters.2.1 zeros⟩
  | [a, b, c], pad, letters, whole, short, clear => by
    obtain rfl : pad = 1 := by
      simp only [List.length_cons, List.length_nil] at whole
      omega
    simp only [List.forall_mem_cons] at letters
    have zeros : c % 4 = 0 := Nat.mod_eq_zero_of_dvd (clear c rfl)
    exact ⟨_, letters_two letters.1 letters.2.1 letters.2.2.1 zeros⟩
  | a :: b :: c :: d :: rest, pad, letters, whole, short, clear => by
    simp only [List.length_cons] at whole
    simp only [List.forall_mem_cons] at letters
    obtain ⟨boundA, boundB, boundC, boundD, letters⟩ := letters
    have last : ∀ n ∈ rest.getLast?, 4 ^ pad ∣ n := by
      intro n last
      apply clear
      rw [List.getLast?_cons, List.getLast?_cons, List.getLast?_cons, List.getLast?_cons]
      simp [Option.mem_def.1 last]
    obtain ⟨data, others⟩ := exists_encode rest letters (by omega) short last
    exact ⟨_, (letters_three boundA boundB boundC boundD data).trans (by rw [others]; rfl)⟩

theorem exists_decode?_iff {t : List Char} : (∃ data, decode? t = some data) ↔ Regular t := by
  constructor
  · rintro ⟨data, read⟩
    rw [decode?_eq_some.1 read]
    exact regular_encode data
  · rintro ⟨values, pad, letters, whole, short, clear⟩
    obtain ⟨data, same⟩ := exists_encode values letters whole short clear
    exact ⟨data, decode?_eq_some.2 same.symm⟩

def alphabet : List Char :=
  "ABCDEFGHIJKLMNOPQRSTUVWXYZabcdefghijklmnopqrstuvwxyz0123456789+/".toList

theorem getElem?_alphabet : ∀ n < 64, alphabet[n]? = some (letter n) := by decide

inductive Irregular : List Char → Prop where
  | foreign {t : List Char} {c : Char} (member : c ∈ t) (unpadded : c ≠ '=')
      (other : c ∉ alphabet) : Irregular t
  | ragged {t : List Char} (length : ¬ 4 ∣ t.length) : Irregular t
  | early {front back : List Char} {c : Char} (other : c ≠ '=') :
      Irregular (front ++ '=' :: c :: back)
  | excess {front : List Char} : Irregular (front ++ ['=', '=', '='])
  | stray {front : List Char} {n pad : Nat} (bound : n < 64) (bits : ¬ 4 ^ pad ∣ n) :
      Irregular (front ++ [letter n] ++ List.replicate pad '=')

theorem pad_notMem {values : List Nat} (letters : ∀ n ∈ values, n < 64) :
    '=' ∉ values.map letter := by
  intro member
  obtain ⟨n, present, same⟩ := List.mem_map.1 member
  exact letter_ne_pad n (letters n present) same

theorem letter_inj {n m : Nat} (boundN : n < 64) (boundM : m < 64) (same : letter n = letter m) :
    n = m := by
  have value := value?_letter n boundN
  rw [same, value?_letter m boundM] at value
  exact (Option.some.inj value).symm

theorem padding_unique {a b : List Char} {c : Char} (other : c ≠ '=') (plain : '=' ∉ b) :
    ∀ {k m : Nat}, a ++ [c] ++ List.replicate k '=' = b ++ List.replicate m '=' →
      k = m ∧ a ++ [c] = b
  | 0, 0, same => ⟨rfl, by simpa using same⟩
  | 0, m + 1, same => by
    rw [List.replicate_succ', List.replicate_zero, List.append_nil, ← List.append_assoc] at same
    exact absurd (List.append_inj_right' same rfl) (by simpa using other)
  | k + 1, 0, same => by
    rw [List.replicate_succ', List.replicate_zero, List.append_nil, ← List.append_assoc] at same
    exact absurd (by rw [← same]; simp) plain
  | k + 1, m + 1, same => by
    rw [List.replicate_succ', List.replicate_succ', ← List.append_assoc, ← List.append_assoc] at same
    obtain ⟨same, text⟩ := padding_unique other plain (List.append_inj_left' same rfl)
    exact ⟨congrArg (· + 1) same, text⟩

theorem behind_padding {front rest values : List Char} {pad : Nat} (plain : '=' ∉ values)
    (same : front ++ '=' :: rest = values ++ List.replicate pad '=') : ∀ c ∈ rest, c = '=' := by
  intro c member
  rcases List.append_eq_append_iff.1 same with ⟨more, rfl, begins⟩ | ⟨more, -, ends⟩
  · cases more with
    | nil => exact List.eq_of_mem_replicate (begins ▸ List.mem_cons_of_mem _ member)
    | cons d more =>
      cases begins
      exact absurd (by simp) plain
  · have there : c ∈ List.replicate pad '=' := by
      rw [ends]
      simp [member]
    exact List.eq_of_mem_replicate there

theorem Irregular.not_regular {t : List Char} (irregular : Irregular t) : ¬ Regular t := by
  intro regular
  generalize text : t = t' at regular
  obtain ⟨values, pad, letters, whole, short, clear⟩ := regular
  have plain := pad_notMem letters
  cases irregular with
  | foreign member unpadded other =>
    rw [text] at member
    rcases List.mem_append.1 member with inside | behind
    · obtain ⟨n, present, same⟩ := List.mem_map.1 inside
      rw [← same] at other
      exact other (List.mem_of_getElem? (getElem?_alphabet n (letters n present)))
    · exact unpadded (List.eq_of_mem_replicate behind)
  | ragged length =>
    rw [text] at length
    exact length (by simpa using whole)
  | early other => exact other (behind_padding plain text _ (.head _))
  | excess =>
    have count := congrArg (List.count '=') text
    simp [List.count_eq_zero.2 plain] at count
    omega
  | stray bound bits =>
    obtain ⟨rfl, same⟩ := padding_unique (letter_ne_pad _ bound) plain text
    rcases List.eq_nil_or_concat values with rfl | ⟨others, v, rfl⟩
    · simp at same
    · rw [List.concat_eq_append] at same letters clear
      rw [List.map_append] at same
      have last := List.append_inj_right' same rfl
      cases letter_inj bound (letters v (by simp)) (List.singleton_inj.1 last)
      exact bits (clear _ (by simp))

end ControlPlane.Base64
