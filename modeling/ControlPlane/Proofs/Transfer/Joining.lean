import ControlPlane.Proofs.Text.Resolving
import ControlPlane.Proofs.Transfer.Layout
-- Joined paths are clean: the names that no double dot takes back, or the dot of none.
namespace ControlPlane.Transfer

variable {a b c other : String}

theorem cleanJoin_eq (a b : String) :
    cleanJoin a b = cleanText (staying (segments a ++ segments b)) := by
  rw [cleanJoin, cleanNames_eq_staying]

theorem staying_clean (a b : String) :
    ∀ name ∈ staying (segments a ++ segments b), IsCleanName name := by
  rw [← cleanNames_eq_staying]
  exact cleanNames_segments_clean a b

theorem level_cleanJoin (a b : String) : ".." ∉ segments (cleanJoin a b) :=
  level_cleanText (cleanNames_segments_clean a b)

theorem pathNames_cleanJoin (a b : String) :
    pathNames (cleanJoin a b) = cleanNames (segments a ++ segments b) :=
  pathNames_of_clean (cleanNames_segments_clean a b)

theorem cleanNames_join_level (a : String) (level : ".." ∉ segments b) :
    cleanNames (segments a ++ segments b) = cleanNames (segments a) ++ pathNames b := by
  rw [cleanNames_append_balanced _ (balanced_of_level level), cleanNames_level level]
  rfl

theorem cleanJoin_again (a b : String) : cleanJoin (cleanJoin a b) "" = cleanJoin a b := by
  have nothing : ".." ∉ segments "" := by decide
  have names := cleanNames_join (level_cleanJoin a b) nothing
  rw [pathNames_empty, List.append_nil, pathNames_cleanJoin] at names
  rw [cleanJoin, names]
  rfl

theorem cleanJoin_assoc (a : String) (middle : ".." ∉ segments b) (last : ".." ∉ segments c) :
    cleanJoin (cleanJoin a b) c = cleanJoin a (cleanJoin b c) := by
  have left : cleanNames (segments (cleanJoin a b) ++ segments c) =
      cleanNames (segments a) ++ pathNames b ++ pathNames c := by
    rw [cleanNames_join (level_cleanJoin a b) last, pathNames_cleanJoin,
      cleanNames_join_level a middle]
  have right : cleanNames (segments a ++ segments (cleanJoin b c)) =
      cleanNames (segments a) ++ (pathNames b ++ pathNames c) := by
    rw [cleanNames_join_level a (level_cleanJoin b c), pathNames_cleanJoin,
      cleanNames_join middle last]
  rw [cleanJoin, left, cleanJoin, right, List.append_assoc]

theorem cleanJoin_inj (a : String) (one : ".." ∉ segments b) (two : ".." ∉ segments other) :
    cleanJoin a b = cleanJoin a other ↔ pathNames b = pathNames other := by
  constructor
  · intro same
    have names := congrArg pathNames same
    rw [pathNames_cleanJoin, pathNames_cleanJoin, cleanNames_join_level a one,
      cleanNames_join_level a two] at names
    exact List.append_cancel_left names
  · intro same
    rw [cleanJoin, cleanJoin, cleanNames_join_level a one, cleanNames_join_level a two, same]

-- A joined path consists of the names that stay when each double dot has taken back the last
-- name, if there is one, and is a dot without any; joining nothing more to it leaves it as it
-- is. What is joined without double dots may be joined piece by piece, and is told apart by its
-- names, which stand behind those of the first path when there is no double dot in it either.
theorem cleanJoin_lawful (a : String) :
    (∀ b, (∀ name ∈ staying (segments a ++ segments b), IsCleanName name) ∧
      (staying (segments a ++ segments b) = [] ∧ cleanJoin a b = "." ∨
        staying (segments a ++ segments b) ≠ [] ∧
          cleanJoin a b = joinNames (staying (segments a ++ segments b))) ∧
      cleanJoin (cleanJoin a b) "" = cleanJoin a b) ∧
    ∀ b, ".." ∉ segments b →
      (".." ∉ segments a → staying (segments a ++ segments b) = pathNames a ++ pathNames b ∧
        pathNames (cleanJoin a b) = pathNames a ++ pathNames b) ∧
      (∀ c, ".." ∉ segments c → cleanJoin (cleanJoin a b) c = cleanJoin a (cleanJoin b c)) ∧
      ∀ other, ".." ∉ segments other →
        (cleanJoin a b = cleanJoin a other ↔ pathNames b = pathNames other) := by
  refine ⟨fun b => ⟨staying_clean a b, ?_, cleanJoin_again a b⟩, fun b level => ⟨?_, ?_, ?_⟩⟩
  · rw [cleanJoin_eq]
    by_cases none : staying (segments a ++ segments b) = []
    · rw [none]
      exact .inl ⟨rfl, rfl⟩
    · exact .inr ⟨none, Volume.cleanText_of_ne_nil none⟩
  · intro first
    rw [pathNames_cleanJoin, ← cleanNames_eq_staying, cleanNames_join first level]
    exact ⟨rfl, rfl⟩
  · exact fun c last => cleanJoin_assoc a level last
  · exact fun other two => cleanJoin_inj a level two

theorem cleanJoin_lawful_pieces :
    ".." ∉ segments "./two//" ∧ ".." ∉ segments "/a/." ∧ ".." ∉ segments "b" ∧
      pathNames (cleanJoin "./two//" "/a/.") = ["two", "a"] ∧
      cleanJoin (cleanJoin "./two//" "/a/.") "b" = cleanJoin "./two//" (cleanJoin "/a/." "b") ∧
      cleanJoin "./two//" "/a/." ≠ cleanJoin "./two//" "b" := by
  have first : ".." ∉ segments "./two//" := by decide
  have middle : ".." ∉ segments "/a/." := by decide
  have last : ".." ∉ segments "b" := by decide
  obtain ⟨names, pieces, apart⟩ := (cleanJoin_lawful "./two//").2 "/a/." middle
  have differ : pathNames "/a/." ≠ pathNames "b" := by decide
  exact ⟨first, middle, last, (names first).2, pieces "b" last,
    fun same => differ ((apart "b" last).1 same)⟩

end ControlPlane.Transfer
