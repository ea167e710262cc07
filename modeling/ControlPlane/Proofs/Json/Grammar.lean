import ControlPlane.Json.Reader
import Mathlib.Data.List.TakeWhile
-- How strings and numbers may be written in a document, said apart from the readers of
-- tokens, and that these read what is written so and nothing else.
namespace ControlPlane.Json

inductive SpellsElements : List Char → List Element → Prop where
  | nil : SpellsElements [] []
  | plain {c : Char} {s : List Char} {es : List Element} (quote : c ≠ '"') (backslash : c ≠ '\\')
      (printable : 0x20 ≤ c.toNat) (rest : SpellsElements s es) :
      SpellsElements (c :: s) (.char c :: es)
  | escape {e c : Char} {s : List Char} {es : List Element} (letter : shortEscape? e = some c)
      (rest : SpellsElements s es) : SpellsElements ('\\' :: e :: s) (.char c :: es)
  | unit {a b c d : Char} {n : Nat} {s : List Char} {es : List Element}
      (code : hexUnit? a b c d = some n) (rest : SpellsElements s es) :
      SpellsElements ('\\' :: 'u' :: a :: b :: c :: d :: s) (.unit n :: es)

inductive SpellsText : List Char → Text → Prop where
  | quoted {s : List Char} {es : List Element} (elements : SpellsElements s es) :
      SpellsText ('"' :: (s ++ ['"'])) ((joinUnits es).map String.ofList)

structure Digits (s : List Char) : Prop where
  some : s ≠ []
  all : ∀ c ∈ s, c.isDigit = true

structure Whole (s : List Char) : Prop extends Digits s where
  leading : ∀ c rest, s ≠ '0' :: c :: rest

inductive SpellsSign : List Char → Bool → Prop where
  | none : SpellsSign [] false
  | minus : SpellsSign ['-'] true

inductive SpellsFraction : List Char → Option (List Char) → Prop where
  | none : SpellsFraction [] none
  | some {ds : List Char} (digits : Digits ds) : SpellsFraction ('.' :: ds) (some ds)

inductive SpellsExponent : List Char → Int → Prop where
  | bare {ds : List Char} (digits : Digits ds) : SpellsExponent ds (digitsValue ds)
  | plus {ds : List Char} (digits : Digits ds) : SpellsExponent ('+' :: ds) (digitsValue ds)
  | minus {ds : List Char} (digits : Digits ds) : SpellsExponent ('-' :: ds) (-digitsValue ds)

inductive SpellsPower : List Char → Option Int → Prop where
  | none : SpellsPower [] none
  | small {s : List Char} {e : Int} (exponent : SpellsExponent s e) : SpellsPower ('e' :: s) (some e)
  | large {s : List Char} {e : Int} (exponent : SpellsExponent s e) : SpellsPower ('E' :: s) (some e)

def Number.ofParts (negative : Bool) (whole : List Char) : Option (List Char) → Option Int → Number
  | none, none => .whole negative (digitsValue whole)
  | part, power =>
    .decimal negative (digitsValue (whole ++ part.getD []))
      (power.getD 0 - (part.getD []).length)

inductive SpellsNumber : List Char → Number → Prop where
  | parts {s ds f p : List Char} {negative : Bool} {part : Option (List Char)}
      {power : Option Int} (sign : SpellsSign s negative) (whole : Whole ds)
      (fraction : SpellsFraction f part) (exponent : SpellsPower p power) :
      SpellsNumber (s ++ ds ++ f ++ p) (.ofParts negative ds part power)

def continues (c : Char) : Bool := c.isDigit || c == '.' || c == 'e' || c == 'E'

def Stops (rest : List Char) : Prop := ∀ c ∈ rest.head?, continues c = false

theorem stringBody_unit {a b c d : Char} {n : Nat} (code : hexUnit? a b c d = some n)
    (rest : List Char) : stringBody ('\\' :: 'u' :: a :: b :: c :: d :: rest) =
      (stringBody rest).map fun p => (.unit n :: p.1, p.2) := by
  rw [stringBody, code]
  cases stringBody rest <;> rfl

theorem stringBody_escape {e c : Char} (letter : shortEscape? e = some c) (rest : List Char) :
    stringBody ('\\' :: e :: rest) = (stringBody rest).map fun p => (.char c :: p.1, p.2) := by
  have other : e ≠ 'u' := by
    rintro rfl
    cases letter
  rw [stringBody.eq_4 _ _ (fun _ _ _ _ _ same _ => other same), letter]
  cases stringBody rest <;> rfl

theorem stringBody_plain {c : Char} (quote : c ≠ '"') (backslash : c ≠ '\\')
    (printable : 0x20 ≤ c.toNat) (rest : List Char) :
    stringBody (c :: rest) = (stringBody rest).map fun p => (.char c :: p.1, p.2) := by
  rw [stringBody.eq_5 _ _ (fun same => quote same) (fun _ _ _ _ _ same _ => backslash same)
    (fun _ _ same _ => backslash same)]
  simp only [Nat.not_lt.2 printable, backslash, or_self, if_false]
  cases stringBody rest <;> rfl

theorem stringBody_spelled {s : List Char} {es : List Element} (spelled : SpellsElements s es)
    (rest : List Char) : stringBody (s ++ '"' :: rest) = some (es, rest) := by
  induction spelled with
  | nil => rw [List.nil_append, stringBody]
  | plain quote backslash printable _ ih =>
    rw [List.cons_append, stringBody_plain quote backslash printable, ih]
    rfl
  | escape letter _ ih =>
    rw [List.cons_append, List.cons_append, stringBody_escape letter, ih]
    rfl
  | unit code _ ih =>
    simp only [List.cons_append]
    rw [stringBody_unit code, ih]
    rfl

theorem spelled_of_stringBody {s rest : List Char} {es : List Element}
    (read : stringBody s = some (es, rest)) :
    ∃ t, s = t ++ '"' :: rest ∧ SpellsElements t es := by
  fun_induction stringBody s generalizing es rest with
  | case1 => cases read
  | case2 s =>
    cases read
    exact ⟨[], rfl, .nil⟩
  | case3 a b c d s ih =>
    obtain ⟨n, code, read⟩ := Option.bind_eq_some_iff.1 read
    obtain ⟨⟨later, rest'⟩, read, same⟩ := Option.bind_eq_some_iff.1 read
    cases same
    obtain ⟨t, rfl, spelled⟩ := ih read
    exact ⟨_, rfl, .unit code spelled⟩
  | case4 e s _ ih =>
    obtain ⟨c, letter, read⟩ := Option.bind_eq_some_iff.1 read
    obtain ⟨⟨later, rest'⟩, read, same⟩ := Option.bind_eq_some_iff.1 read
    cases same
    obtain ⟨t, rfl, spelled⟩ := ih read
    exact ⟨_, rfl, .escape letter spelled⟩
  | case5 => cases read
  | case6 c s quote _ _ allowed ih =>
    obtain ⟨⟨later, rest'⟩, read, same⟩ := Option.bind_eq_some_iff.1 read
    cases same
    obtain ⟨t, rfl, spelled⟩ := ih read
    rw [not_or, Nat.not_lt] at allowed
    exact ⟨_, rfl, .plain (fun same => quote same) allowed.2 allowed.1 spelled⟩

theorem stringToken_eq_some {s rest : List Char} {t : Text} :
    stringToken s = some (t, rest) ↔ ∃ body, '"' :: s = body ++ rest ∧ SpellsText body t := by
  constructor
  · intro read
    obtain ⟨⟨es, rest'⟩, read, same⟩ := Option.bind_eq_some_iff.1 read
    cases same
    obtain ⟨body, rfl, spelled⟩ := spelled_of_stringBody read
    exact ⟨_, by simp, .quoted spelled⟩
  · rintro ⟨_, same, ⟨spelled⟩⟩
    rw [List.cons_append, List.append_assoc, List.cons.injEq] at same
    rw [stringToken, same.2, List.singleton_append, stringBody_spelled spelled]
    rfl

theorem Digits.of_takeWhile {s : List Char} (some : (s.takeWhile Char.isDigit).isEmpty = false) :
    Digits (s.takeWhile Char.isDigit) :=
  ⟨List.isEmpty_eq_false_iff.1 some, fun _ member => List.mem_takeWhile_imp member⟩

theorem Stops.no_digit {rest : List Char} (stops : Stops rest) : rest.takeWhile Char.isDigit = [] := by
  cases rest with
  | nil => rfl
  | cons c rest =>
    have other := stops c rfl
    simp only [continues, Bool.or_eq_false_iff] at other
    rw [List.takeWhile_cons_of_neg (by simp [other])]

theorem Digits.takeWhile {ds rest : List Char} (digits : Digits ds)
    (ends : rest.takeWhile Char.isDigit = []) : (ds ++ rest).takeWhile Char.isDigit = ds := by
  rw [List.takeWhile_append_of_pos digits.all, ends, List.append_nil]

theorem Digits.dropWhile {ds rest : List Char} (digits : Digits ds)
    (ends : rest.takeWhile Char.isDigit = []) : (ds ++ rest).dropWhile Char.isDigit = rest := by
  rw [List.dropWhile_append_of_pos digits.all]
  simpa [ends] using List.takeWhile_append_dropWhile (p := Char.isDigit) (l := rest)

theorem Digits.front {ds : List Char} (digits : Digits ds) (rest : List Char) {c : Char}
    (other : c.isDigit = false) : ∀ r, ds ++ rest ≠ c :: r := by
  intro r same
  rcases List.append_eq_cons_iff.mp same with ⟨empty, _⟩ | ⟨cs, leading, _⟩
  · exact digits.some empty
  · have digit := digits.all c (by rw [leading]; exact .head _)
    rw [other] at digit
    cases digit

theorem exponent_spelled {s rest : List Char} {e : Int} (spelled : SpellsExponent s e)
    (ends : rest.takeWhile Char.isDigit = []) : exponent (s ++ rest) = some (e, rest) := by
  have present : ∀ {ds : List Char}, Digits ds → ds.isEmpty = false :=
    fun digits => List.isEmpty_eq_false_iff.2 digits.some
  unfold exponent
  cases spelled with
  | bare digits =>
    have minus := digits.front rest (c := '-') rfl
    have plus := digits.front rest (c := '+') rfl
    simp only [digits.takeWhile ends, digits.dropWhile ends, present digits, Bool.false_eq_true,
      if_false]
  | plus digits =>
    simp only [List.cons_append, digits.takeWhile ends, digits.dropWhile ends, present digits,
      Bool.false_eq_true, if_false]
  | minus digits =>
    simp only [List.cons_append, digits.takeWhile ends, digits.dropWhile ends, present digits,
      Bool.false_eq_true, if_false, if_true]

theorem spelled_of_exponent {s rest : List Char} {e : Int} (read : exponent s = some (e, rest)) :
    ∃ t, s = t ++ rest ∧ SpellsExponent t e := by
  have parts : ∀ r : List Char, r = r.takeWhile Char.isDigit ++ r.dropWhile Char.isDigit :=
    fun r => List.takeWhile_append_dropWhile.symm
  unfold exponent at read
  split at read
  rename_i negative digits signed
  dsimp only at read
  split at read
  · cases read
  · rename_i some
    cases read
    have digits := Digits.of_takeWhile (Bool.eq_false_iff.2 some)
    split at signed
    · cases signed
      exact ⟨_, congrArg ('-' :: ·) (parts _), .minus digits⟩
    · cases signed
      exact ⟨_, congrArg ('+' :: ·) (parts _), .plus digits⟩
    · cases signed
      exact ⟨_, parts _, .bare digits⟩

def readFraction : List Char → Option (Option (List Char) × List Char)
  | '.' :: r =>
    if (r.takeWhile Char.isDigit).isEmpty then none
    else some (some (r.takeWhile Char.isDigit), r.dropWhile Char.isDigit)
  | r => some (none, r)

def readPower : List Char → Option (Option Int × List Char)
  | 'e' :: r => (exponent r).map fun p => (some p.1, p.2)
  | 'E' :: r => (exponent r).map fun p => (some p.1, p.2)
  | r => some (none, r)

theorem fraction_eq (negative : Bool) (whole s : List Char) : fraction negative whole s =
    (readFraction s).bind fun p => (readPower p.2).map fun q =>
      (.ofParts negative whole p.1 q.1, q.2) := by
  unfold fraction
  split
  · rename_i r
    rw [readFraction]
    dsimp only
    split
    · rfl
    · simp only [Option.bind_eq_bind, Option.bind_some]
      split
      · rename_i power
        rw [power, readPower]
        cases exponent _ <;> rfl
      · rename_i power
        rw [power, readPower]
        cases exponent _ <;> rfl
      · rename_i small large
        rw [readPower.eq_3 _ small large]
        rfl
  · rename_i whole
    rw [readFraction.eq_2 _ whole]
    simp only [Option.bind_eq_bind, Option.bind_some]
    split
    · rw [readPower]
      cases exponent _ <;> rfl
    · rw [readPower]
      cases exponent _ <;> rfl
    · rename_i small large
      rw [readPower.eq_3 _ small large]
      rfl

theorem Stops.front {rest : List Char} (stops : Stops rest) {c : Char} (goes : continues c = true) :
    ∀ r, rest ≠ c :: r := by
  rintro r rfl
  rw [stops c rfl] at goes
  cases goes

theorem readPower_spelled {s rest : List Char} {power : Option Int} (spelled : SpellsPower s power)
    (stops : Stops rest) : readPower (s ++ rest) = some (power, rest) := by
  cases spelled with
  | none => exact readPower.eq_3 _ (stops.front rfl) (stops.front rfl)
  | small exponent =>
    rw [List.cons_append, readPower, exponent_spelled exponent stops.no_digit]
    rfl
  | large exponent =>
    rw [List.cons_append, readPower, exponent_spelled exponent stops.no_digit]
    rfl

theorem spelled_of_readPower {s rest : List Char} {power : Option Int}
    (read : readPower s = some (power, rest)) : ∃ t, s = t ++ rest ∧ SpellsPower t power := by
  unfold readPower at read
  split at read
  · obtain ⟨_, taken, same⟩ := Option.map_eq_some_iff.1 read
    cases same
    obtain ⟨t, rfl, exponent⟩ := spelled_of_exponent taken
    exact ⟨_, rfl, .small exponent⟩
  · obtain ⟨_, taken, same⟩ := Option.map_eq_some_iff.1 read
    cases same
    obtain ⟨t, rfl, exponent⟩ := spelled_of_exponent taken
    exact ⟨_, rfl, .large exponent⟩
  · cases read
    exact ⟨[], rfl, .none⟩

theorem SpellsPower.ends {s rest : List Char} {power : Option Int} (spelled : SpellsPower s power)
    (stops : Stops rest) :
    (s ++ rest).takeWhile Char.isDigit = [] ∧ ∀ r, s ++ rest ≠ '.' :: r := by
  cases spelled with
  | none => exact ⟨stops.no_digit, stops.front rfl⟩
  | small => exact ⟨rfl, nofun⟩
  | large => exact ⟨rfl, nofun⟩

theorem readFraction_spelled {s rest : List Char} {part : Option (List Char)}
    (spelled : SpellsFraction s part) (ends : rest.takeWhile Char.isDigit = [])
    (plain : ∀ r, rest ≠ '.' :: r) : readFraction (s ++ rest) = some (part, rest) := by
  cases spelled with
  | none => exact readFraction.eq_2 _ plain
  | some digits =>
    rw [List.cons_append, readFraction, digits.takeWhile ends, digits.dropWhile ends, if_neg]
    simpa using digits.some

theorem spelled_of_readFraction {s rest : List Char} {part : Option (List Char)}
    (read : readFraction s = some (part, rest)) : ∃ t, s = t ++ rest ∧ SpellsFraction t part := by
  unfold readFraction at read
  split at read
  · split at read
    · cases read
    · rename_i some
      cases read
      refine ⟨_, congrArg ('.' :: ·) List.takeWhile_append_dropWhile.symm, .some ?_⟩
      exact .of_takeWhile (Bool.eq_false_iff.2 some)
  · cases read
    exact ⟨[], rfl, .none⟩

theorem numberToken_whole {s ds rest : List Char} {negative : Bool} (sign : SpellsSign s negative)
    (whole : Whole ds) (ends : rest.takeWhile Char.isDigit = []) :
    numberToken (s ++ ds ++ rest) = fraction negative ds rest := by
  have taken := whole.takeWhile ends
  have dropped := whole.dropWhile ends
  unfold numberToken
  cases sign with
  | none =>
    have plain := whole.front rest (c := '-') rfl
    simp only [List.nil_append, taken, dropped]
    split
    · exact absurd rfl whole.some
    · exact absurd rfl (whole.leading _ _)
    · rfl
  | minus =>
    simp only [List.cons_append, List.nil_append, taken, dropped]
    split
    · exact absurd rfl whole.some
    · exact absurd rfl (whole.leading _ _)
    · rfl

theorem numberToken_spelled {s rest : List Char} {n : Number} (spelled : SpellsNumber s n)
    (stops : Stops rest) : numberToken (s ++ rest) = some (n, rest) := by
  obtain ⟨sign, whole, part, power⟩ := spelled
  obtain ⟨ends, plain⟩ := power.ends stops
  rename_i f p _ _ _
  have behind : (f ++ (p ++ rest)).takeWhile Char.isDigit = [] := by
    cases part with
    | none => exact ends
    | some => rfl
  rw [List.append_assoc, List.append_assoc, numberToken_whole sign whole behind, fraction_eq,
    readFraction_spelled part ends plain, Option.bind_some, readPower_spelled power stops]
  rfl

theorem spelled_of_numberToken {s rest : List Char} {n : Number}
    (read : numberToken s = some (n, rest)) : ∃ t, s = t ++ rest ∧ SpellsNumber t n := by
  unfold numberToken at read
  split at read
  rename_i negative digits signed
  dsimp only at read
  split at read
  · cases read
  · cases read
  · rename_i some leading
    rw [fraction_eq] at read
    obtain ⟨⟨part, behind⟩, first, read⟩ := Option.bind_eq_some_iff.1 read
    obtain ⟨⟨power, last⟩, second, same⟩ := Option.map_eq_some_iff.1 read
    cases same
    obtain ⟨f, dropped, fraction⟩ := spelled_of_readFraction first
    obtain ⟨p, rfl, exponent⟩ := spelled_of_readPower second
    have whole : Whole (digits.takeWhile Char.isDigit) := {
      some := some
      all := fun _ member => List.mem_takeWhile_imp member
      leading := leading }
    have parts : digits = digits.takeWhile Char.isDigit ++ f ++ p ++ last := by
      rw [List.append_assoc, List.append_assoc, ← dropped, List.takeWhile_append_dropWhile]
    split at signed
    · cases signed
      exact ⟨_, congrArg ('-' :: ·) parts, .parts .minus whole fraction exponent⟩
    · cases signed
      exact ⟨_, parts, .parts .none whole fraction exponent⟩

end ControlPlane.Json
