import ControlPlane.Proofs.Json.Document
import ControlPlane.Proofs.Json.Tokens
-- Every document is written in the way of the grammar, and so it is read back.
namespace ControlPlane.Json

theorem Document.of_spells {s : List Char} {v : Value} (spelled : Spells s v) : Document s v := by
  have nothing : AllSpace [] := nofun
  simpa using Document.padded nothing spelled nothing

theorem SpellsKey.of_text {s : List Char} {name : Text} (text : SpellsText s name) :
    SpellsKey s name := by
  have nothing : AllSpace [] := nofun
  simpa using SpellsKey.padded nothing text nothing

mutual
theorem spells_print : ∀ v : Value, Spells v.print v
  | .null => .null
  | .bool true => .yes
  | .bool false => .no
  | .number n => .number (spells_number n)
  | .string t => .string (spells_quote t)
  | .array [] => .noItems (s := []) nofun
  | .array (v :: vs) => by
    obtain ⟨s, written, items⟩ := spells_printItems (v :: vs) (List.cons_ne_nil _ _)
    rw [Value.print, written]
    exact .array items
  | .object [] => .noMembers (s := []) nofun
  | .object (m :: ms) => by
    obtain ⟨s, written, members⟩ := spells_printMembers (m :: ms) (List.cons_ne_nil _ _)
    rw [Value.print, written]
    exact .object members

theorem spells_printItems : ∀ vs : List Value, vs ≠ [] →
    ∃ s, printItems vs = s ++ [']'] ∧ SpellsItems s vs
  | [], empty => absurd rfl empty
  | [v], _ => ⟨v.print, rfl, .last (.of_spells (spells_print v))⟩
  | v :: w :: vs, _ => by
    obtain ⟨s, written, items⟩ := spells_printItems (w :: vs) (List.cons_ne_nil _ _)
    refine ⟨v.print ++ ',' :: s, ?_, .more (.of_spells (spells_print v)) items⟩
    rw [List.append_assoc, List.cons_append, ← written]
    rfl

theorem spells_printMembers : ∀ ms : List (Text × Value), ms ≠ [] →
    ∃ s, printMembers ms = s ++ ['}'] ∧ SpellsMembers s ms
  | [], empty => absurd rfl empty
  | [(name, v)], _ =>
    ⟨quote name ++ ':' :: v.print, by simp [printMembers, printMoreMembers],
      .last (.of_text (spells_quote name)) (.of_spells (spells_print v))⟩
  | (name, v) :: m :: ms, _ => by
    obtain ⟨s, written, members⟩ := spells_printMembers (m :: ms) (List.cons_ne_nil _ _)
    refine ⟨quote name ++ ':' :: (v.print ++ ',' :: s), ?_,
      .more (.of_text (spells_quote name)) (.of_spells (spells_print v)) members⟩
    simp only [List.append_assoc, List.cons_append, ← written]
    rfl
end

theorem Value.print_begins (v : Value) : ∃ c cs, v.print = c :: cs ∧ isFront c = true :=
  (spells_print v).begins

theorem parse_print (v : Value) : parse v.print = some v :=
  parse_eq_some.2 (.of_spells (spells_print v))

end ControlPlane.Json
