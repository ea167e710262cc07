import ControlPlane.Client.Handle
import ControlPlane.Proofs.Text.Blank
import ControlPlane.Proofs.Text.Resolving
-- Where a relative path ends up that is joined to a work directory: at the directory
-- itself, or below it at the names that no double dot takes back.
namespace ControlPlane

theorem joinWorkDirectory_nil {base rel : String} (none : cleanNames (segments rel) = []) :
    joinWorkDirectory base rel = base := by
  rw [joinWorkDirectory, none]

theorem joinWorkDirectory_names {base rel : String} (some : cleanNames (segments rel) ≠ []) :
    joinWorkDirectory base rel = trimSlashes base ++ "/" ++ joinNames (cleanNames (segments rel)) := by
  unfold joinWorkDirectory
  split
  · rename_i none
    exact absurd none some
  · rfl

theorem trimSlashes_below (base : String) {names : List String} (some : names ≠ [])
    (clean : ∀ name ∈ names, IsCleanName name) :
    trimSlashes (base ++ "/" ++ joinNames names) = base ++ "/" ++ joinNames names := by
  apply trimSlashes_of_last
  have solid : "" ∉ segments (joinNames names) := by
    rw [segments_joinNames some fun name member => (clean name member).2.2.2]
    exact fun empty => (clean "" empty).1 rfl
  have text : (joinNames names).toList ≠ [] := by
    intro none
    rw [String.toList_eq_nil_iff.1 none] at solid
    exact solid (by decide)
  rw [String.toList_append, List.getLast?_append_of_ne_nil _ text]
  exact last_ne_slash solid

theorem joinWorkDirectory_pieces (base first : String) {second : String}
    (balanced : Balanced (segments second)) : joinWorkDirectory base (first ++ "/" ++ second) =
      joinWorkDirectory (joinWorkDirectory base first) second := by
  have names : cleanNames (segments (first ++ "/" ++ second)) =
      cleanNames (segments first) ++ cleanNames (segments second) := by
    rw [segments_append_slash, cleanNames_append_balanced _ balanced]
  by_cases later : cleanNames (segments second) = []
  · rw [joinWorkDirectory_nil later, joinWorkDirectory, joinWorkDirectory, names, later,
      List.append_nil]
  · have some : cleanNames (segments (first ++ "/" ++ second)) ≠ [] := by
      simp [names, later]
    rw [joinWorkDirectory_names some, joinWorkDirectory_names later, names]
    by_cases front : cleanNames (segments first) = []
    · rw [joinWorkDirectory_nil front, front, List.nil_append]
    · rw [joinWorkDirectory_names front, trimSlashes_below _ front (cleanNames_segments first),
        joinNames_append front later]
      simp only [String.append_assoc]

-- A relative path is joined by the names that stay when each double dot has taken back the
-- last name, if there is one. Without any the directory stays as it is, slashes included.
-- Otherwise they follow what is left of it without slashes at its end, and none of them leads
-- out of it. A path that takes back names of its own alone may be joined after what precedes it.
theorem joinWorkDirectory_resolves (base : String) :
    (∀ rel, cleanNames (segments rel) = staying (segments rel) ∧
      (∀ name ∈ staying (segments rel), IsCleanName name) ∧
      (staying (segments rel) = [] ∧ joinWorkDirectory base rel = base ∨
        staying (segments rel) ≠ [] ∧ ∃ slashes, (∀ c ∈ slashes, c = '/') ∧
          base.toList = (trimSlashes base).toList ++ slashes ∧
          (trimSlashes base).toList.getLast? ≠ some '/' ∧
          joinWorkDirectory base rel =
            trimSlashes base ++ "/" ++ joinNames (staying (segments rel)))) ∧
    ∀ first second, Balanced (segments second) → joinWorkDirectory base (first ++ "/" ++ second) =
      joinWorkDirectory (joinWorkDirectory base first) second := by
  refine ⟨fun rel => ?_, fun first second => joinWorkDirectory_pieces base first⟩
  rw [← cleanNames_eq_staying]
  refine ⟨rfl, cleanNames_segments rel, ?_⟩
  by_cases none : cleanNames (segments rel) = []
  · exact .inl ⟨none, joinWorkDirectory_nil none⟩
  · obtain ⟨slashes, all, whole, ends⟩ := exists_trimSlashes base
    exact .inr ⟨none, slashes, all, whole, ends, joinWorkDirectory_names none⟩

theorem joinWorkDirectory_resolves_pieces :
    Balanced (segments "c/../d") ∧ joinWorkDirectory "/work//" ("../a/./b" ++ "/" ++ "c/../d") =
        joinWorkDirectory (joinWorkDirectory "/work//" "../a/./b") "c/../d" ∧
      staying (segments "../a/./b/c/../d") = ["a", "b", "d"] := by
  have balanced : Balanced (segments "c/../d") := by decide +kernel
  exact ⟨balanced, (joinWorkDirectory_resolves "/work//").2 _ _ balanced, by decide +kernel⟩

end ControlPlane
