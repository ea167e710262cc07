import ControlPlane.Proofs.Json.Grammar
import Mathlib.Data.List.DropRight
-- How a document may be written, and that the reader takes what is written so and nothing
-- else: a text is read exactly if it is the text of a document, and then as that
-- document.
namespace ControlPlane.Json

def AllSpace (s : List Char) : Prop := ∀ c ∈ s, isSpace c = true

inductive SpellsKey : List Char → Text → Prop where
  | padded {before s behind : List Char} {name : Text} (front : AllSpace before)
      (text : SpellsText s name) (back : AllSpace behind) :
      SpellsKey (before ++ s ++ behind) name

mutual
inductive Spells : List Char → Value → Prop where
  | null : Spells ['n', 'u', 'l', 'l'] .null
  | yes : Spells ['t', 'r', 'u', 'e'] (.bool true)
  | no : Spells ['f', 'a', 'l', 's', 'e'] (.bool false)
  | number {s : List Char} {n : Number} (number : SpellsNumber s n) : Spells s (.number n)
  | string {s : List Char} {t : Text} (text : SpellsText s t) : Spells s (.string t)
  | noItems {s : List Char} (blank : AllSpace s) : Spells ('[' :: (s ++ [']'])) (.array [])
  | array {s : List Char} {vs : List Value} (items : SpellsItems s vs) :
      Spells ('[' :: (s ++ [']'])) (.array vs)
  | noMembers {s : List Char} (blank : AllSpace s) : Spells ('{' :: (s ++ ['}'])) (.object [])
  | object {s : List Char} {ms : List (Text × Value)} (members : SpellsMembers s ms) :
      Spells ('{' :: (s ++ ['}'])) (.object ms)

inductive Document : List Char → Value → Prop where
  | padded {before s behind : List Char} {v : Value} (front : AllSpace before)
      (value : Spells s v) (back : AllSpace behind) : Document (before ++ s ++ behind) v

inductive SpellsItems : List Char → List Value → Prop where
  | last {s : List Char} {v : Value} (value : Document s v) : SpellsItems s [v]
  | more {s rest : List Char} {v : Value} {vs : List Value} (value : Document s v)
      (others : SpellsItems rest vs) : SpellsItems (s ++ ',' :: rest) (v :: vs)

inductive SpellsMembers : List Char → List (Text × Value) → Prop where
  | last {k s : List Char} {name : Text} {v : Value} (key : SpellsKey k name)
      (value : Document s v) : SpellsMembers (k ++ ':' :: s) [(name, v)]
  | more {k s rest : List Char} {name : Text} {v : Value} {ms : List (Text × Value)}
      (key : SpellsKey k name) (value : Document s v) (others : SpellsMembers rest ms) :
      SpellsMembers (k ++ ':' :: (s ++ ',' :: rest)) ((name, v) :: ms)
end

theorem AllSpace.append {a b : List Char} (left : AllSpace a) (right : AllSpace b) :
    AllSpace (a ++ b) :=
  fun c member => (List.mem_append.1 member).elim (left c) (right c)

theorem Document.blank {b s : List Char} {v : Value} (document : Document s v) (all : AllSpace b) :
    Document (b ++ s) v := by
  obtain ⟨front, value, back⟩ := document
  simpa only [List.append_assoc] using Document.padded (all.append front) value back

theorem SpellsKey.blank {b k : List Char} {name : Text} (key : SpellsKey k name)
    (all : AllSpace b) : SpellsKey (b ++ k) name := by
  obtain ⟨front, text, back⟩ := key
  simpa only [List.append_assoc] using SpellsKey.padded (all.append front) text back

theorem SpellsItems.blank {b s : List Char} {vs : List Value} (items : SpellsItems s vs)
    (all : AllSpace b) : SpellsItems (b ++ s) vs := by
  cases items with
  | last value => exact .last (value.blank all)
  | more value others =>
    rw [← List.append_assoc]
    exact .more (value.blank all) others

theorem SpellsMembers.blank {b s : List Char} {ms : List (Text × Value)}
    (members : SpellsMembers s ms) (all : AllSpace b) : SpellsMembers (b ++ s) ms := by
  cases members with
  | last key value =>
    rw [← List.append_assoc]
    exact .last (key.blank all) value
  | more key value others =>
    rw [← List.append_assoc]
    exact .more (key.blank all) value others

theorem exists_skip (s : List Char) : ∃ blank, AllSpace blank ∧ s = blank ++ skip s :=
  ⟨s.takeWhile isSpace, fun _ member => List.mem_takeWhile_imp member,
    List.takeWhile_append_dropWhile.symm⟩

theorem skip_blank {blank : List Char} (all : AllSpace blank) (s : List Char) :
    skip (blank ++ s) = skip s := List.dropWhile_append_of_pos all

theorem skip_solid {s : List Char} (solid : ∀ c ∈ s.head?, isSpace c = false) : skip s = s := by
  cases s with
  | nil => rfl
  | cons c s => simp [skip, solid c rfl]

-- What the reader of a value takes behind the blanks is the text of a value. The readers of
-- items and members take what stands in front of the closing bracket.
structure Takes (fuel : Nat) : Prop where
  value : ∀ {s v rest}, value fuel s = some (v, rest) → ∃ t, skip s = t ++ rest ∧ Spells t v
  items : ∀ {s vs rest}, items fuel s = some (vs, rest) →
    ∃ t, s = t ++ ']' :: rest ∧ SpellsItems t vs
  members : ∀ {s ms rest}, members fuel s = some (ms, rest) →
    ∃ t, s = t ++ '}' :: rest ∧ SpellsMembers t ms

theorem exists_document {s t rest : List Char} {v : Value} (taken : skip s = t ++ rest)
    (spelled : Spells t v) : ∃ d, s = d ++ skip rest ∧ Document d v := by
  obtain ⟨before, front, text⟩ := exists_skip s
  obtain ⟨behind, back, more⟩ := exists_skip rest
  refine ⟨before ++ t ++ behind, ?_, .padded front spelled back⟩
  rw [List.append_assoc, ← more, List.append_assoc, ← taken, ← text]

theorem exists_key {s r rest : List Char} {name : Text} (quote : skip s = '"' :: r)
    (read : stringToken r = some (name, rest)) : ∃ k, s = k ++ skip rest ∧ SpellsKey k name := by
  obtain ⟨before, front, text⟩ := exists_skip s
  obtain ⟨behind, back, more⟩ := exists_skip rest
  obtain ⟨t, taken, spelled⟩ := stringToken_eq_some.1 read
  refine ⟨before ++ t ++ behind, ?_, .padded front spelled back⟩
  rw [List.append_assoc, ← more, List.append_assoc, ← taken, ← quote, ← text]

theorem Takes.value_succ {fuel : Nat} (takes : Takes fuel) {s rest : List Char} {v : Value}
    (read : Json.value (fuel + 1) s = some (v, rest)) :
    ∃ t, skip s = t ++ rest ∧ Spells t v := by
  rw [Json.value] at read
  split at read
  · rename_i quote
    obtain ⟨_, taken, same⟩ := Option.map_eq_some_iff.1 read
    cases same
    obtain ⟨t, text, spelled⟩ := stringToken_eq_some.1 taken
    exact ⟨t, quote.trans text, .string spelled⟩
  · rename_i r bracket
    rw [bracket]
    obtain ⟨blank, all, text⟩ := exists_skip r
    split at read
    · rename_i close
      cases read
      exact ⟨'[' :: (blank ++ [']']), by rw [text, close]; simp, .noItems all⟩
    · obtain ⟨_, taken, same⟩ := Option.map_eq_some_iff.1 read
      cases same
      obtain ⟨t, inner, spelled⟩ := takes.items taken
      exact ⟨'[' :: (blank ++ t ++ [']']), by rw [text, inner]; simp, .array (spelled.blank all)⟩
  · rename_i r bracket
    rw [bracket]
    obtain ⟨blank, all, text⟩ := exists_skip r
    split at read
    · rename_i close
      cases read
      exact ⟨'{' :: (blank ++ ['}']), by rw [text, close]; simp, .noMembers all⟩
    · obtain ⟨_, taken, same⟩ := Option.map_eq_some_iff.1 read
      cases same
      obtain ⟨t, inner, spelled⟩ := takes.members taken
      exact ⟨'{' :: (blank ++ t ++ ['}']), by rw [text, inner]; simp, .object (spelled.blank all)⟩
  · rename_i letters
    cases read
    exact ⟨_, letters, .null⟩
  · rename_i letters
    cases read
    exact ⟨_, letters, .yes⟩
  · rename_i letters
    cases read
    exact ⟨_, letters, .no⟩
  · obtain ⟨_, taken, same⟩ := Option.map_eq_some_iff.1 read
    cases same
    obtain ⟨t, text, spelled⟩ := spelled_of_numberToken taken
    exact ⟨t, text, .number spelled⟩

theorem Takes.items_succ {fuel : Nat} (takes : Takes fuel) {s rest : List Char} {vs : List Value}
    (read : Json.items (fuel + 1) s = some (vs, rest)) :
    ∃ t, s = t ++ ']' :: rest ∧ SpellsItems t vs := by
  rw [Json.items] at read
  obtain ⟨⟨v, r⟩, first, read⟩ := Option.bind_eq_some_iff.1 read
  obtain ⟨t, taken, spelled⟩ := takes.value first
  obtain ⟨d, text, document⟩ := exists_document taken spelled
  dsimp only at read
  split at read
  · rename_i close
    cases read
    exact ⟨d, by rw [text, close], .last document⟩
  · rename_i comma
    obtain ⟨_, taken, same⟩ := Option.map_eq_some_iff.1 read
    cases same
    obtain ⟨more, rfl, others⟩ := takes.items taken
    exact ⟨d ++ ',' :: more, by rw [text, comma]; simp, .more document others⟩
  · cases read

theorem Takes.members_succ {fuel : Nat} (takes : Takes fuel) {s rest : List Char}
    {ms : List (Text × Value)} (read : Json.members (fuel + 1) s = some (ms, rest)) :
    ∃ t, s = t ++ '}' :: rest ∧ SpellsMembers t ms := by
  rw [Json.members] at read
  split at read
  · rename_i quote
    obtain ⟨⟨name, r⟩, token, read⟩ := Option.bind_eq_some_iff.1 read
    obtain ⟨k, text, key⟩ := exists_key quote token
    dsimp only at read
    split at read
    · rename_i colon
      obtain ⟨⟨v, r'⟩, first, read⟩ := Option.bind_eq_some_iff.1 read
      obtain ⟨t, taken, spelled⟩ := takes.value first
      obtain ⟨d, behind, document⟩ := exists_document taken spelled
      dsimp only at read
      split at read
      · rename_i close
        cases read
        exact ⟨k ++ ':' :: d, by rw [text, colon, behind, close]; simp, .last key document⟩
      · rename_i comma
        obtain ⟨_, taken, same⟩ := Option.map_eq_some_iff.1 read
        cases same
        obtain ⟨more, rfl, others⟩ := takes.members taken
        exact ⟨k ++ ':' :: (d ++ ',' :: more), by rw [text, colon, behind, comma]; simp,
          .more key document others⟩
      · cases read
    · cases read
  · cases read

theorem takes (fuel : Nat) : Takes fuel := by
  induction fuel with
  | zero => exact ⟨nofun, nofun, nofun⟩
  | succ fuel ih => exact ⟨ih.value_succ, ih.items_succ, ih.members_succ⟩

theorem document_of_parse {s : List Char} {v : Value} (read : parse s = some v) : Document s v := by
  unfold parse at read
  split at read
  · rename_i v' rest taken
    split at read
    · rename_i ends
      cases read
      obtain ⟨t, text, spelled⟩ := (takes _).value taken
      obtain ⟨d, whole, document⟩ := exists_document text spelled
      rw [List.isEmpty_iff.1 ends, List.append_nil] at whole
      exact whole ▸ document
    · cases read
  · cases read

def isFront (c : Char) : Bool :=
  c == 'n' || c == 't' || c == 'f' || c == '"' || c == '[' || c == '{' || c == '-' || c.isDigit

theorem isFront_of_isDigit {c : Char} (digit : c.isDigit = true) : isFront c = true := by
  simp [isFront, digit]

theorem not_isSpace_of_isFront {c : Char} (front : isFront c = true) : isSpace c = false := by
  cases blank : isSpace c with
  | false => rfl
  | true =>
    simp only [isSpace, Bool.or_eq_true, beq_iff_eq] at blank
    rcases blank with ((rfl | rfl) | rfl) | rfl <;> exact absurd front (by decide)

theorem SpellsNumber.begins {s : List Char} {n : Number} (number : SpellsNumber s n) :
    ∃ c cs, s = c :: cs ∧ (c = '-' ∨ c.isDigit = true) := by
  obtain ⟨sign, whole, _, _⟩ := number
  cases sign with
  | none =>
    obtain ⟨c, cs, rfl⟩ := List.exists_cons_of_ne_nil whole.some
    exact ⟨c, _, rfl, .inr (whole.all c (.head _))⟩
  | minus => exact ⟨'-', _, rfl, .inl rfl⟩

theorem Spells.begins {s : List Char} {v : Value} (spelled : Spells s v) :
    ∃ c cs, s = c :: cs ∧ isFront c = true := by
  cases spelled with
  | number number =>
    obtain ⟨c, cs, rfl, minus | digit⟩ := number.begins
    · exact ⟨c, cs, rfl, by rw [minus]; rfl⟩
    · exact ⟨c, cs, rfl, isFront_of_isDigit digit⟩
  | string text =>
    obtain ⟨_⟩ := text
    exact ⟨_, _, rfl, rfl⟩
  | _ => exact ⟨_, _, rfl, rfl⟩

theorem Document.begins {s : List Char} {v : Value} (document : Document s v) :
    ∃ b c cs, AllSpace b ∧ s = b ++ c :: cs ∧ isFront c = true := by
  obtain ⟨front, spelled, _⟩ := document
  obtain ⟨c, cs, rfl, first⟩ := spelled.begins
  exact ⟨_, c, _, front, by simp; rfl, first⟩

theorem skip_front {c : Char} {s : List Char} (front : isFront c = true) : skip (c :: s) = c :: s :=
  skip_solid fun _ same => by
    cases same
    exact not_isSpace_of_isFront front

theorem Document.skip_front {s : List Char} {v : Value} (document : Document s v)
    (rest : List Char) : ∃ c cs, skip (s ++ rest) = c :: cs ∧ isFront c = true := by
  obtain ⟨b, c, cs, all, rfl, front⟩ := document.begins
  exact ⟨c, cs ++ rest, by rw [List.append_assoc, skip_blank all]; exact Json.skip_front front, front⟩

theorem stops_blank {b rest : List Char} (all : AllSpace b) (stops : Stops rest) :
    Stops (b ++ rest) := by
  cases b with
  | nil => exact stops
  | cons c b =>
    intro d same
    cases same
    have blank := all c (.head _)
    simp only [isSpace, Bool.or_eq_true, beq_iff_eq] at blank
    rcases blank with ((rfl | rfl) | rfl) | rfl <;> rfl

theorem skip_skip (s : List Char) : skip (skip s) = skip s :=
  List.dropWhile_idempotent isSpace s

theorem value_skip (fuel : Nat) (s : List Char) : value fuel (skip s) = value fuel s := by
  cases fuel with
  | zero => rfl
  | succ fuel => rw [value, value, skip_skip]

theorem items_skip (fuel : Nat) (s : List Char) : items fuel (skip s) = items fuel s := by
  cases fuel with
  | zero => rfl
  | succ fuel => rw [items, items, value_skip]

theorem members_skip (fuel : Nat) (s : List Char) : members fuel (skip s) = members fuel s := by
  cases fuel with
  | zero => rfl
  | succ fuel => rw [members, members, skip_skip]

theorem value_number {s rest : List Char} {n : Number} (number : SpellsNumber s n)
    (stops : Stops rest) (fuel : Nat) : value (fuel + 1) (s ++ rest) = some (.number n, rest) := by
  have read := numberToken_spelled number stops
  obtain ⟨c, cs, rfl, first⟩ := number.begins
  have front : isFront c = true := by
    rcases first with rfl | digit
    · rfl
    · exact isFront_of_isDigit digit
  have other : ∀ d, (d == '-' || d.isDigit) = false → ∀ r, c :: cs ++ rest ≠ d :: r := by
    intro d neither r same
    cases same
    simp only [Bool.or_eq_false_iff, beq_eq_false_iff_ne] at neither
    rcases first with minus | digit
    · exact neither.1 minus
    · rw [neither.2] at digit
      cases digit
  rw [value, List.cons_append, skip_front front]
  rw [List.cons_append] at read other
  split
  · exact absurd ‹_› (other '"' rfl _)
  · exact absurd ‹_› (other '[' rfl _)
  · exact absurd ‹_› (other '{' rfl _)
  · exact absurd ‹_› (other 'n' rfl _)
  · exact absurd ‹_› (other 't' rfl _)
  · exact absurd ‹_› (other 'f' rfl _)
  · rw [read]
    rfl

-- What is written in the way of the grammar is taken whole. Each bracket and comma pays for
-- one step of the reader.
structure Returns (fuel : Nat) : Prop where
  value : ∀ {s v}, Spells s v → s.length ≤ fuel → ∀ rest, (∀ n, v = .number n → Stops rest) →
    value fuel (s ++ rest) = some (v, rest)
  items : ∀ {s vs}, SpellsItems s vs → s.length < fuel → ∀ rest,
    items fuel (s ++ ']' :: rest) = some (vs, rest)
  members : ∀ {s ms}, SpellsMembers s ms → s.length < fuel → ∀ rest,
    members fuel (s ++ '}' :: rest) = some (ms, rest)

theorem Returns.document {fuel : Nat} (returns : Returns fuel) {s rest : List Char} {v : Value}
    (document : Document s v) (enough : s.length ≤ fuel) (stops : ∀ n, v = .number n → Stops rest) :
    ∃ left, Json.value fuel (s ++ rest) = some (v, left) ∧ skip left = skip rest := by
  obtain ⟨front, spelled, back⟩ := document
  rename_i before t behind
  simp only [List.length_append] at enough
  refine ⟨behind ++ rest, ?_, skip_blank back rest⟩
  rw [← value_skip, List.append_assoc, List.append_assoc, skip_blank front, value_skip]
  exact returns.value spelled (by omega) _ fun n number => stops_blank back (stops n number)

theorem value_string {s rest : List Char} {t : Text} (text : SpellsText s t) (fuel : Nat) :
    value (fuel + 1) (s ++ rest) = some (.string t, rest) := by
  obtain ⟨elements⟩ := text
  rename_i body es
  have token : stringToken (body ++ ['"'] ++ rest) = some ((joinUnits es).map String.ofList, rest) :=
    stringToken_eq_some.2 ⟨_, rfl, .quoted elements⟩
  rw [value, List.cons_append, skip_front (by rfl)]
  simp only [token, Option.map_some]

theorem SpellsItems.skip_front {s : List Char} {vs : List Value} (items : SpellsItems s vs)
    (rest : List Char) : ∃ c cs, skip (s ++ rest) = c :: cs ∧ isFront c = true := by
  cases items with
  | last value => exact value.skip_front rest
  | more value others =>
    rw [List.append_assoc]
    exact value.skip_front _

theorem SpellsKey.skip_front {k : List Char} {name : Text} (key : SpellsKey k name)
    (rest : List Char) : ∃ r, skip (k ++ rest) = '"' :: r ∧
      ∃ left, stringToken r = some (name, left) ∧ skip left = skip rest := by
  obtain ⟨front, text, back⟩ := key
  obtain ⟨elements⟩ := text
  rename_i before behind body es
  refine ⟨body ++ ['"'] ++ (behind ++ rest), ?_, behind ++ rest, ?_, skip_blank back rest⟩
  · rw [List.append_assoc, List.append_assoc, skip_blank front]
    exact Json.skip_front (by rfl)
  · exact stringToken_eq_some.2 ⟨_, rfl, .quoted elements⟩

theorem SpellsMembers.skip_front {s : List Char} {ms : List (Text × Value)}
    (members : SpellsMembers s ms) (rest : List Char) : ∃ r, skip (s ++ rest) = '"' :: r := by
  cases members with
  | last key value =>
    obtain ⟨r, quote, _⟩ := key.skip_front (':' :: (_ ++ rest))
    exact ⟨r, by rw [List.append_assoc]; exact quote⟩
  | more key value others =>
    obtain ⟨r, quote, _⟩ := key.skip_front (':' :: (_ ++ rest))
    exact ⟨r, by rw [List.append_assoc]; exact quote⟩

theorem skip_close {b : List Char} {c : Char} (blank : AllSpace b) (solid : isSpace c = false)
    (rest : List Char) : skip (b ++ [c] ++ rest) = c :: rest := by
  rw [List.append_assoc, skip_blank blank]
  refine skip_solid fun d same => ?_
  cases same
  exact solid

theorem Returns.value_succ {fuel : Nat} (returns : Returns fuel) {s : List Char} {v : Value}
    (spelled : Spells s v) (enough : s.length ≤ fuel + 1) (rest : List Char)
    (stops : ∀ n, v = .number n → Stops rest) :
    Json.value (fuel + 1) (s ++ rest) = some (v, rest) := by
  cases spelled with
  | null => rfl
  | yes => rfl
  | no => rfl
  | number number => exact value_number number (stops _ rfl) fuel
  | string text => exact value_string text fuel
  | noItems blank =>
    rw [Json.value, List.cons_append, skip_front (by rfl)]
    simp only [skip_close blank (c := ']') (by rfl)]
  | array items =>
    rename_i inner vs
    simp only [List.length_cons, List.length_append, List.length_nil] at enough
    have taken := returns.items items (by omega) rest
    obtain ⟨c, cs, begins, front⟩ := items.skip_front (']' :: rest)
    rw [← items_skip, begins] at taken
    rw [Json.value, List.cons_append, skip_front (by rfl)]
    simp only [List.append_assoc, List.singleton_append, begins]
    split
    · rename_i same
      cases same
      cases front
    · rw [taken]
      rfl
  | noMembers blank =>
    rw [Json.value, List.cons_append, skip_front (by rfl)]
    simp only [skip_close blank (c := '}') (by rfl)]
  | object members =>
    rename_i inner ms
    simp only [List.length_cons, List.length_append, List.length_nil] at enough
    have taken := returns.members members (by omega) rest
    obtain ⟨r, quote⟩ := members.skip_front ('}' :: rest)
    rw [← members_skip, quote] at taken
    rw [Json.value, List.cons_append, skip_front (by rfl)]
    simp only [List.append_assoc, List.singleton_append, quote]
    exact congrArg (Option.map _) taken

theorem stops_cons {c : Char} (other : continues c = false) (rest : List Char) :
    Stops (c :: rest) := by
  intro d same
  cases same
  exact other

theorem skip_left {left rest : List Char} {c : Char} (behind : skip left = skip (c :: rest))
    (solid : isSpace c = false) : skip left = c :: rest := by
  rw [behind]
  refine skip_solid fun d same => ?_
  cases same
  exact solid

theorem Returns.items_succ {fuel : Nat} (returns : Returns fuel) {s : List Char}
    {vs : List Value} (spelled : SpellsItems s vs) (enough : s.length < fuel + 1)
    (rest : List Char) :
    Json.items (fuel + 1) (s ++ ']' :: rest) = some (vs, rest) := by
  cases spelled with
  | last value =>
    obtain ⟨left, taken, behind⟩ :=
      returns.document value (by omega) fun _ _ => (stops_cons (c := ']') (by rfl) rest)
    rw [Json.items, taken]
    simp only [Option.bind_eq_bind, Option.bind_some, skip_left behind (by rfl)]
  | more value others =>
    simp only [List.length_cons, List.length_append] at enough
    obtain ⟨left, taken, behind⟩ :=
      returns.document value (by omega) fun _ _ => (stops_cons (c := ',') (by rfl) _)
    have later := returns.items others (by omega) rest
    rw [Json.items, List.append_assoc, List.cons_append, taken]
    simp only [Option.bind_eq_bind, Option.bind_some, skip_left behind (by rfl), later]
    rfl

theorem Returns.members_succ {fuel : Nat} (returns : Returns fuel) {s : List Char}
    {ms : List (Text × Value)} (spelled : SpellsMembers s ms) (enough : s.length < fuel + 1)
    (rest : List Char) :
    Json.members (fuel + 1) (s ++ '}' :: rest) = some (ms, rest) := by
  cases spelled with
  | last key value =>
    simp only [List.length_cons, List.length_append] at enough
    obtain ⟨r, quote, front, token, colon⟩ := key.skip_front (':' :: (_ ++ '}' :: rest))
    obtain ⟨left, taken, behind⟩ :=
      returns.document value (by omega) fun _ _ => (stops_cons (c := '}') (by rfl) rest)
    rw [Json.members, List.append_assoc, List.cons_append, quote]
    simp only [Option.bind_eq_bind, Option.bind_some, token, skip_left colon (by rfl), taken,
      skip_left behind (by rfl)]
  | more key value others =>
    rename_i k s more name v ms
    simp only [List.length_cons, List.length_append] at enough
    obtain ⟨r, quote, front, token, colon⟩ :=
      key.skip_front (':' :: (s ++ ',' :: (more ++ '}' :: rest)))
    obtain ⟨left, taken, behind⟩ :=
      returns.document value (by omega) fun _ _ => (stops_cons (c := ',') (by rfl) (more ++ '}' :: rest))
    have later := returns.members others (by omega) rest
    rw [Json.members, List.append_assoc, List.cons_append, List.append_assoc, List.cons_append,
      quote]
    simp only [Option.bind_eq_bind, Option.bind_some, token, skip_left colon (by rfl), taken,
      skip_left behind (by rfl), later]
    rfl

theorem returns (fuel : Nat) : Returns fuel := by
  induction fuel with
  | zero =>
    refine ⟨fun spelled enough _ _ => ?_, nofun, nofun⟩
    obtain ⟨c, cs, rfl, _⟩ := spelled.begins
    cases enough
  | succ fuel ih => exact ⟨ih.value_succ, ih.items_succ, ih.members_succ⟩

theorem Document.parse_append {s rest : List Char} {v : Value} (document : Document s v)
    (stops : ∀ n, v = .number n → Stops rest) :
    parse (s ++ rest) = if (skip rest).isEmpty then some v else none := by
  have enough : s.length ≤ (s ++ rest).length + 1 := by
    rw [List.length_append]
    omega
  obtain ⟨left, taken, behind⟩ := (returns _).document document enough stops
  rw [parse, taken]
  simp only [behind]

theorem parse_of_document {s : List Char} {v : Value} (document : Document s v) :
    parse s = some v := by
  have ends : Stops [] := nofun
  have whole := document.parse_append fun _ _ => ends
  rwa [List.append_nil] at whole

theorem skip_isEmpty {s : List Char} : (skip s).isEmpty = true ↔ AllSpace s := by
  rw [List.isEmpty_iff, skip, List.dropWhile_eq_nil_iff]
  rfl

theorem parse_eq_some {s : List Char} {v : Value} : parse s = some v ↔ Document s v :=
  ⟨document_of_parse, parse_of_document⟩

theorem Document.unique {s : List Char} {v w : Value} (first : Document s v)
    (second : Document s w) : v = w :=
  Option.some.inj ((parse_of_document first).symm.trans (parse_of_document second))

end ControlPlane.Json
