import ControlPlane.Text.Utf8
-- What is written as octets is read back, and every character that is read stands in the
-- octets in its one written form.
namespace ControlPlane.Utf8

@[simp]
theorem encode_cons (c : Char) (cs : List Char) :
    encode (c :: cs) = encodeChar c ++ encode cs := rfl

@[simp]
theorem encode_append (a b : List Char) : encode (a ++ b) = encode a ++ encode b := by
  simp [encode]

theorem toNat_ofNat_octet {n : Nat} (small : n < 256) : (UInt8.ofNat n).toNat = n := by
  simp only [UInt8.toNat_ofNat', Nat.reducePow]
  omega

theorem toNat_range (c : Char) : c.toNat < 0xD800 ∨ (0xDFFF < c.toNat ∧ c.toNat < 0x110000) :=
  c.valid

theorem lead_one {n : Nat} (small : n < 0x80) : lead n = .whole (Char.ofNat n) := by
  simp [lead, small]

theorem lead_two {n : Nat} (low : 0xC2 ≤ n) (high : n < 0xE0) :
    lead n = .begins ⟨1, 0x80, 0xBF, n - 0xC0⟩ := by
  simp only [lead, show ¬ n < 0x80 by omega, show ¬ n < 0xC2 by omega, high, if_true, if_false]

theorem lead_three {n : Nat} (low : 0xE0 ≤ n) (high : n < 0xF0) :
    lead n = .begins
      ⟨2, if n = 0xE0 then 0xA0 else 0x80, if n = 0xED then 0x9F else 0xBF, n - 0xE0⟩ := by
  simp only [lead, show ¬ n < 0x80 by omega, show ¬ n < 0xC2 by omega,
    show ¬ n < 0xE0 by omega, high, if_true, if_false]

theorem lead_four {n : Nat} (low : 0xF0 ≤ n) (high : n < 0xF5) :
    lead n = .begins
      ⟨3, if n = 0xF0 then 0x90 else 0x80, if n = 0xF4 then 0x8F else 0xBF, n - 0xF0⟩ := by
  simp only [lead, show ¬ n < 0x80 by omega, show ¬ n < 0xC2 by omega,
    show ¬ n < 0xE0 by omega, show ¬ n < 0xF0 by omega, high, if_true, if_false]

theorem take_last {low high bits n : Nat} (above : low ≤ n) (below : n ≤ high) :
    (⟨1, low, high, bits⟩ : Pending).take n = some (.inl (Char.ofNat (bits * 64 + n % 64))) := by
  simp [Pending.take, above, below]

theorem take_inner {left low high bits n : Nat} (above : low ≤ n) (below : n ≤ high) :
    (⟨left + 2, low, high, bits⟩ : Pending).take n =
      some (.inr ⟨left + 1, 0x80, 0xBF, bits * 64 + n % 64⟩) := by
  simp [Pending.take, above, below]

theorem scanFrom_encodeChar (c : Char) (rest : Bytes) :
    scanFrom none (encodeChar c ++ rest) = some c :: scanFrom none rest := by
  have range := toNat_range c
  have whole : ∀ n, n = c.toNat → Char.ofNat n = c := fun n same => by rw [same, Char.ofNat_toNat]
  unfold encodeChar
  dsimp only
  split
  · rename_i small
    have octet := toNat_ofNat_octet (show c.toNat < 256 by omega)
    simp [scanFrom, advance, start, octet, lead_one small]
  · split
    · have first := toNat_ofNat_octet (show 0xC0 + c.toNat / 64 < 256 by omega)
      have second := toNat_ofNat_octet (show 0x80 + c.toNat % 64 < 256 by omega)
      simp only [List.cons_append, List.nil_append, scanFrom, advance, start, first, second,
        lead_two (show 0xC2 ≤ 0xC0 + c.toNat / 64 by omega) (by omega),
        take_last (show 0x80 ≤ 0x80 + c.toNat % 64 by omega)
          (show 0x80 + c.toNat % 64 ≤ 0xBF by omega)]
      rw [whole _ (by omega)]
    · split
      · have first := toNat_ofNat_octet (show 0xE0 + c.toNat / 4096 < 256 by omega)
        have second := toNat_ofNat_octet (show 0x80 + c.toNat / 64 % 64 < 256 by omega)
        have third := toNat_ofNat_octet (show 0x80 + c.toNat % 64 < 256 by omega)
        simp only [List.cons_append, List.nil_append, scanFrom, advance, start, first, second,
          third, lead_three (show 0xE0 ≤ 0xE0 + c.toNat / 4096 by omega) (by omega)]
        rw [take_inner (by split <;> omega) (by split <;> omega)]
        simp only [List.nil_append, take_last (show 0x80 ≤ 0x80 + c.toNat % 64 by omega)
          (show 0x80 + c.toNat % 64 ≤ 0xBF by omega), List.cons_append]
        rw [whole _ (by omega)]
      · have first := toNat_ofNat_octet (show 0xF0 + c.toNat / 262144 < 256 by omega)
        have second := toNat_ofNat_octet (show 0x80 + c.toNat / 4096 % 64 < 256 by omega)
        have third := toNat_ofNat_octet (show 0x80 + c.toNat / 64 % 64 < 256 by omega)
        have fourth := toNat_ofNat_octet (show 0x80 + c.toNat % 64 < 256 by omega)
        simp only [List.cons_append, List.nil_append, scanFrom, advance, start, first, second,
          third, fourth, lead_four (show 0xF0 ≤ 0xF0 + c.toNat / 262144 by omega) (by omega)]
        rw [@take_inner 1 _ _ _ _ (by split <;> omega) (by split <;> omega)]
        simp only [List.nil_append]
        rw [@take_inner 0 _ _ _ _ (by omega) (by omega)]
        simp only [List.nil_append, take_last (show 0x80 ≤ 0x80 + c.toNat % 64 by omega)
          (show 0x80 + c.toNat % 64 ≤ 0xBF by omega), List.cons_append]
        rw [whole _ (by omega)]

theorem scan_encode (cs : List Char) : scan (encode cs) = cs.map some := by
  induction cs with
  | nil => rfl
  | cons c cs ih => exact (scanFrom_encodeChar c (encode cs)).trans (congrArg _ ih)

theorem mapM_id_map_some {α : Type} (l : List α) : (l.map some).mapM id = some l := by
  induction l with
  | nil => rfl
  | cons a l ih => simp [ih]

theorem decode?_encode (cs : List Char) : decode? (encode cs) = some cs := by
  rw [decode?, scan_encode, mapM_id_map_some]

theorem toNat_of_mem_encodeChar {c : Char} {b : UInt8} (small : b.toNat < 0x80)
    (member : b ∈ encodeChar c) : c.toNat = b.toNat := by
  have range := toNat_range c
  have octet : ∀ n, n < 256 → n ≠ b.toNat → b ≠ UInt8.ofNat n := by
    intro n short other same
    have value := congrArg UInt8.toNat same
    rw [toNat_ofNat_octet short] at value
    exact other value.symm
  unfold encodeChar at member
  dsimp only at member
  split at member
  · by_cases same : c.toNat = b.toNat
    · exact same
    · exact absurd (List.mem_singleton.mp member) (octet _ (by omega) same)
  split at member
  · simp only [List.mem_cons, List.not_mem_nil, or_false] at member
    rcases member with first | second
    · exact absurd first (octet _ (by omega) (by omega))
    · exact absurd second (octet _ (by omega) (by omega))
  split at member
  · simp only [List.mem_cons, List.not_mem_nil, or_false] at member
    rcases member with first | second | third
    · exact absurd first (octet _ (by omega) (by omega))
    · exact absurd second (octet _ (by omega) (by omega))
    · exact absurd third (octet _ (by omega) (by omega))
  · simp only [List.mem_cons, List.not_mem_nil, or_false] at member
    rcases member with first | second | third | fourth
    · exact absurd first (octet _ (by omega) (by omega))
    · exact absurd second (octet _ (by omega) (by omega))
    · exact absurd third (octet _ (by omega) (by omega))
    · exact absurd fourth (octet _ (by omega) (by omega))

theorem encodeChar_ne_nil (c : Char) : encodeChar c ≠ [] := by
  unfold encodeChar
  dsimp only
  repeat' split
  all_goals exact List.cons_ne_nil _ _

theorem eq_newline_of_mem_encodeChar {c : Char} (member : 10 ∈ encodeChar c) : c = '\n' := by
  have same : c.toNat = 10 := toNat_of_mem_encodeChar (by decide) member
  exact Char.toNat_inj.1 same

theorem mem_of_mem_encode {cs : List Char} {b : UInt8} (small : b.toNat < 0x80)
    (member : b ∈ encode cs) : Char.ofNat b.toNat ∈ cs := by
  obtain ⟨c, held, octet⟩ := List.mem_flatMap.mp member
  rwa [← toNat_of_mem_encodeChar small octet, Char.ofNat_toNat]

inductive Begun : Pending → Bytes → Prop where
  | two {a : UInt8} (low : 0xC2 ≤ a.toNat) (high : a.toNat < 0xE0) :
      Begun ⟨1, 0x80, 0xBF, a.toNat - 0xC0⟩ [a]
  | three {a : UInt8} (low : 0xE0 ≤ a.toNat) (high : a.toNat < 0xF0) :
      Begun ⟨2, if a.toNat = 0xE0 then 0xA0 else 0x80, if a.toNat = 0xED then 0x9F else 0xBF,
        a.toNat - 0xE0⟩ [a]
  | threeMore {a b : UInt8} {bits : Nat} (low : 0xE0 ≤ a.toNat) (high : a.toNat < 0xF0)
      (second : 0x80 ≤ b.toNat ∧ b.toNat ≤ 0xBF)
      (same : bits = (a.toNat - 0xE0) * 64 + b.toNat % 64) (long : 32 ≤ bits)
      (noHalf : bits < 0x360 ∨ 0x380 ≤ bits) : Begun ⟨1, 0x80, 0xBF, bits⟩ [a, b]
  | four {a : UInt8} (low : 0xF0 ≤ a.toNat) (high : a.toNat < 0xF5) :
      Begun ⟨3, if a.toNat = 0xF0 then 0x90 else 0x80, if a.toNat = 0xF4 then 0x8F else 0xBF,
        a.toNat - 0xF0⟩ [a]
  | fourMore {a b : UInt8} {bits : Nat} (low : 0xF0 ≤ a.toNat) (high : a.toNat < 0xF5)
      (second : 0x80 ≤ b.toNat ∧ b.toNat ≤ 0xBF)
      (same : bits = (a.toNat - 0xF0) * 64 + b.toNat % 64) (long : 16 ≤ bits)
      (short : bits < 0x110) : Begun ⟨2, 0x80, 0xBF, bits⟩ [a, b]
  | fourMost {a b c : UInt8} {bits : Nat} (low : 0xF0 ≤ a.toNat) (high : a.toNat < 0xF5)
      (second : 0x80 ≤ b.toNat ∧ b.toNat ≤ 0xBF) (third : 0x80 ≤ c.toNat ∧ c.toNat ≤ 0xBF)
      (same : bits = ((a.toNat - 0xF0) * 64 + b.toNat % 64) * 64 + c.toNat % 64)
      (long : 0x400 ≤ bits) (short : bits < 0x4400) : Begun ⟨1, 0x80, 0xBF, bits⟩ [a, b, c]

def Taken : Option Pending → Bytes → Prop
  | none, taken => taken = []
  | some p, taken => Begun p taken

theorem toNat_ofNat_char {n : Nat} (valid : n < 0xD800 ∨ (0xDFFF < n ∧ n < 0x110000)) :
    (Char.ofNat n).toNat = n := by
  unfold Char.ofNat
  rw [dif_pos valid]
  rfl

section Written

variable {n : Nat} {a b c d : UInt8}

theorem ofNat_eq_octet (same : n = a.toNat) : UInt8.ofNat n = a := by
  rw [same, UInt8.ofNat_toNat]

theorem encodeChar_two (low : 0x80 ≤ n) (high : n < 0x800)
    (first : 0xC0 + n / 64 = a.toNat) (second : 0x80 + n % 64 = b.toNat) :
    encodeChar (Char.ofNat n) = [a, b] := by
  simp only [encodeChar, toNat_ofNat_char (show n < 0xD800 ∨ _ from .inl (by omega)),
    show ¬ n < 0x80 by omega, high, if_true, if_false, ofNat_eq_octet first, ofNat_eq_octet second]

theorem encodeChar_three (low : 0x800 ≤ n) (high : n < 0x10000)
    (noHalf : n < 0xD800 ∨ 0xDFFF < n) (first : 0xE0 + n / 4096 = a.toNat)
    (second : 0x80 + n / 64 % 64 = b.toNat) (third : 0x80 + n % 64 = c.toNat) :
    encodeChar (Char.ofNat n) = [a, b, c] := by
  simp only [encodeChar, toNat_ofNat_char (show n < 0xD800 ∨ _ by omega),
    show ¬ n < 0x80 by omega, show ¬ n < 0x800 by omega, high, if_true, if_false,
    ofNat_eq_octet first, ofNat_eq_octet second, ofNat_eq_octet third]

theorem encodeChar_four (low : 0x10000 ≤ n) (high : n < 0x110000)
    (first : 0xF0 + n / 262144 = a.toNat) (second : 0x80 + n / 4096 % 64 = b.toNat)
    (third : 0x80 + n / 64 % 64 = c.toNat) (fourth : 0x80 + n % 64 = d.toNat) :
    encodeChar (Char.ofNat n) = [a, b, c, d] := by
  simp only [encodeChar, toNat_ofNat_char (show n < 0xD800 ∨ _ from .inr (by omega)),
    show ¬ n < 0x80 by omega, show ¬ n < 0x800 by omega, show ¬ n < 0x10000 by omega, if_false,
    ofNat_eq_octet first, ofNat_eq_octet second, ofNat_eq_octet third, ofNat_eq_octet fourth]

end Written

-- An octet that belongs to a sequence either ends it, and the octets are those of the
-- character, or the sequence goes on.
theorem Begun.take {p : Pending} {taken : Bytes} (begun : Begun p taken) {b : UInt8}
    {next : Char ⊕ Pending} (took : p.take b.toNat = some next) :
    match next with
    | .inl c => encodeChar c = taken ++ [b]
    | .inr q => Begun q (taken ++ [b]) := by
  unfold Pending.take at took
  split at took
  · rename_i within
    cases begun with
    | two low high =>
      dsimp only at took within
      simp only [Nat.le_refl, if_true, Option.some.injEq] at took
      subst took
      dsimp only
      exact encodeChar_two (by omega) (by omega) (by omega) (by omega)
    | three low high =>
      dsimp only at took within
      simp only [show ¬ 2 ≤ 1 by omega, if_false, Option.some.injEq] at took
      subst took
      dsimp only
      refine .threeMore low high ?_ rfl ?_ ?_ <;> split at within <;> split at within <;> omega
    | threeMore low high second same long noHalf =>
      dsimp only at took within
      simp only [Nat.le_refl, if_true, Option.some.injEq] at took
      subst took
      dsimp only
      exact encodeChar_three (by omega) (by omega) (by omega) (by omega) (by omega) (by omega)
    | four low high =>
      dsimp only at took within
      simp only [show ¬ 3 ≤ 1 by omega, if_false, Option.some.injEq] at took
      subst took
      dsimp only
      refine .fourMore low high ?_ rfl ?_ ?_ <;> split at within <;> split at within <;> omega
    | fourMore low high second same long short =>
      dsimp only at took within
      simp only [show ¬ 2 ≤ 1 by omega, if_false, Option.some.injEq] at took
      subst took
      dsimp only
      exact .fourMost low high second within (by rw [same]) (by omega) (by omega)
    | fourMost low high second third same long short =>
      dsimp only at took within
      simp only [Nat.le_refl, if_true, Option.some.injEq] at took
      subst took
      dsimp only
      exact encodeChar_four (by omega) (by omega) (by omega) (by omega) (by omega) (by omega)
  · cases took

def Spelled (parts : List (Option Char × Bytes)) : Prop :=
  ∀ part ∈ parts, ∀ c, part.1 = some c → part.2 = encodeChar c

theorem Spelled.append {one two : List (Option Char × Bytes)} (first : Spelled one)
    (second : Spelled two) : Spelled (one ++ two) := by
  intro part member
  rcases List.mem_append.1 member with left | right
  · exact first part left
  · exact second part right

theorem spelled_gap (bytes : Bytes) : Spelled [(none, bytes)] := by
  intro part member c read
  cases List.mem_singleton.1 member
  cases read

theorem spelled_char {c : Char} {bytes : Bytes} (same : encodeChar c = bytes) :
    Spelled [(some c, bytes)] := by
  intro part member d read
  cases List.mem_singleton.1 member
  cases read
  exact same.symm

theorem start_parts (b : UInt8) : ∃ parts left, Spelled parts ∧
    parts.map (·.1) = (start b).1 ∧ Taken (start b).2 left ∧
      parts.flatMap (·.2) ++ left = [b] := by
  have bound := b.toNat_lt
  by_cases one : b.toNat < 0x80
  · refine ⟨[(some (Char.ofNat b.toNat), [b])], [], spelled_char ?_, ?_, ?_, rfl⟩
    · simp only [encodeChar, toNat_ofNat_char (show b.toNat < 0xD800 ∨ _ from .inl (by omega)),
        one, if_true, UInt8.ofNat_toNat]
    · simp [start, lead_one one]
    · simp [start, lead_one one, Taken]
  · by_cases bad : b.toNat < 0xC2 ∨ 0xF5 ≤ b.toNat
    · have ill : lead b.toNat = .illFormed := by
        unfold lead
        rcases bad with low | high
        · simp only [one, low, if_true, if_false]
        · simp only [one, show ¬ b.toNat < 0xC2 by omega, show ¬ b.toNat < 0xE0 by omega,
            show ¬ b.toNat < 0xF0 by omega, show ¬ b.toNat < 0xF5 by omega, if_false]
      refine ⟨[(none, [b])], [], spelled_gap [b], ?_, ?_, rfl⟩
      · simp [start, ill]
      · simp [start, ill, Taken]
    · refine ⟨[], [b], by simp [Spelled], ?_⟩
      by_cases two : b.toNat < 0xE0
      · simp only [start, lead_two (by omega) two, Taken]
        exact ⟨rfl, .two (by omega) two, rfl⟩
      · by_cases three : b.toNat < 0xF0
        · simp only [start, lead_three (by omega) three, Taken]
          exact ⟨rfl, .three (by omega) three, rfl⟩
        · simp only [start, lead_four (show 0xF0 ≤ b.toNat by omega) (by omega), Taken]
          exact ⟨rfl, .four (by omega) (by omega), rfl⟩

theorem advance_parts {state : Option Pending} {taken : Bytes} (held : Taken state taken)
    (b : UInt8) : ∃ parts left, Spelled parts ∧ parts.map (·.1) = (advance state b).1 ∧
      Taken (advance state b).2 left ∧ parts.flatMap (·.2) ++ left = taken ++ [b] := by
  cases state with
  | none =>
    cases held
    exact start_parts b
  | some p =>
    unfold advance
    dsimp only
    cases took : p.take b.toNat with
    | none =>
      obtain ⟨parts, left, spelled, read, rest, same⟩ := start_parts b
      refine ⟨(none, taken) :: parts, left, (spelled_gap taken).append spelled, ?_, rest, ?_⟩
      · simp [read]
      · simp [same]
    | some next =>
      have step := Begun.take held took
      cases next with
      | inl c => exact ⟨[(some c, taken ++ [b])], [], spelled_char step, rfl, rfl, by simp⟩
      | inr q => exact ⟨[], taken ++ [b], by simp [Spelled], rfl, step, rfl⟩

theorem scanFrom_parts {state : Option Pending} {taken : Bytes} (held : Taken state taken)
    (bytes : Bytes) : ∃ parts, Spelled parts ∧ parts.map (·.1) = scanFrom state bytes ∧
      parts.flatMap (·.2) = taken ++ bytes := by
  induction bytes generalizing state taken with
  | nil =>
    cases state with
    | none =>
      cases held
      exact ⟨[], by simp [Spelled], rfl, rfl⟩
    | some p => exact ⟨[(none, taken)], spelled_gap taken, rfl, by simp⟩
  | cons b bytes ih =>
    obtain ⟨first, left, spelled, read, rest, same⟩ := advance_parts held b
    obtain ⟨parts, others, later, flat⟩ := ih rest
    refine ⟨first ++ parts, spelled.append others, ?_, ?_⟩
    · cases state <;> simp [scanFrom, read, later]
    · rw [List.flatMap_append, flat, ← List.append_assoc, same]
      simp

theorem encode_of_decode? {bytes : Bytes} {cs : List Char} (read : decode? bytes = some cs) :
    encode cs = bytes := by
  obtain ⟨parts, spelled, scanned, flat⟩ := scanFrom_parts (show Taken none [] from rfl) bytes
  unfold decode? scan at read
  rw [← scanned] at read
  rw [← List.nil_append bytes, ← flat]
  clear scanned flat
  induction parts generalizing cs with
  | nil =>
    cases read
    rfl
  | cons part parts ih =>
    obtain ⟨_ | c, octets⟩ := part
    · simp at read
    · simp only [List.map_cons, List.mapM_cons, id_eq, Option.bind_eq_bind,
        Option.bind_some, Option.bind_eq_some_iff] at read
      obtain ⟨others, later, whole⟩ := read
      cases whole
      have here : octets = encodeChar c := spelled (some c, octets) (by simp) c rfl
      have rest := ih later fun part member => spelled part (by simp [member])
      simp [rest, here]

theorem decode?_eq_some {bytes : Bytes} {cs : List Char} :
    decode? bytes = some cs ↔ encode cs = bytes :=
  ⟨encode_of_decode?, fun same => same ▸ decode?_encode cs⟩

theorem decode?_newline (line : Bytes) :
    decode? (line ++ [10]) = (decode? line).map (· ++ ['\n']) := by
  refine Option.ext fun text => ?_
  rw [decode?_eq_some, Option.map_eq_some_iff]
  constructor
  · intro whole
    rcases List.eq_nil_or_concat text with rfl | ⟨front, c, rfl⟩
    · simp [encode] at whole
    · rw [List.concat_eq_append] at whole ⊢
      rw [encode_append, encode_cons, show encode [] = [] from rfl, List.append_nil] at whole
      have newline : c = '\n' := by
        rcases List.eq_nil_or_concat (encodeChar c) with none | ⟨inner, b, ends⟩
        · exact absurd none (encodeChar_ne_nil c)
        · rw [ends, List.concat_eq_append, ← List.append_assoc] at whole
          obtain rfl : b = 10 := List.singleton_inj.1 (List.append_inj' whole rfl).2
          exact eq_newline_of_mem_encodeChar (by simp [ends])
      subst newline
      exact ⟨front, decode?_eq_some.2 (List.append_cancel_right whole), rfl⟩
  · rintro ⟨front, read, rfl⟩
    rw [encode_append, decode?_eq_some.1 read]
    rfl

theorem infix_of_mem_decodeLossy {bytes : Bytes} {c : Char} (member : c ∈ decodeLossy bytes)
    (sound : c ≠ '\uFFFD') : encodeChar c <:+: bytes := by
  obtain ⟨parts, spelled, scanned, flat⟩ := scanFrom_parts (show Taken none [] from rfl) bytes
  unfold decodeLossy scan at member
  rw [← scanned, List.map_map] at member
  obtain ⟨⟨_ | d, octets⟩, present, same⟩ := List.mem_map.1 member
  · exact absurd same.symm sound
  · cases same
    change encodeChar d <:+: bytes
    rw [← spelled _ present d rfl, ← List.nil_append bytes, ← flat]
    exact List.infix_of_mem_flatten (List.mem_map_of_mem present)

theorem encode_decodeLossy {bytes : Bytes} (sound : '\uFFFD' ∉ decodeLossy bytes) :
    encode (decodeLossy bytes) = bytes := by
  apply encode_of_decode?
  unfold decode? decodeLossy at *
  generalize scan bytes = read at *
  induction read with
  | nil => rfl
  | cons c rest ih =>
    simp only [List.map_cons, List.mem_cons, not_or] at sound
    cases c with
    | none => exact absurd rfl sound.1
    | some c => simp [ih sound.2]

end ControlPlane.Utf8

namespace ControlPlane

theorem bytesOf_injective {a b : String} (same : bytesOf a = bytesOf b) : a = b := by
  have text := Utf8.decode?_encode a.toList
  rw [show Utf8.encode a.toList = Utf8.encode b.toList from same, Utf8.decode?_encode] at text
  exact String.toList_injective (Option.some.inj text).symm

theorem bytesOf_ne_nil {name : String} (some : name ≠ "") : bytesOf name ≠ [] :=
  fun none => some (bytesOf_injective (show bytesOf name = bytesOf "" from none))

end ControlPlane
