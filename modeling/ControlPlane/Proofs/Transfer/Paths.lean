import ControlPlane.Proofs.Transfer.Excludes
import ControlPlane.Proofs.Volume.Places
-- The place of a path that does not climb: its names below the root, however the path is
-- spelled.
namespace ControlPlane.Transfer

open Volume

variable {path name : String} {names : List String}

theorem splitOn_bytesOf (path : String) :
    (bytesOf path).splitOn 47 = (segments path).map bytesOf := by
  have some : segments path ≠ [] := by simp [segments, List.splitOn_ne_nil]
  have split := splitOn_joinNames some fun _ member => no_slash_of_mem_segments member
  rwa [joinNames_segments] at split

theorem dot_eq_bytesOf : dot = bytesOf "." := by decide

theorem dotDot_eq_bytesOf : dotDot = bytesOf ".." := by decide

theorem mem_stepsOf {step : Name} (other : step ≠ dot) :
    step ∈ stepsOf (bytesOf path) ↔ step ≠ [] ∧ step ∈ (segments path).map bytesOf := by
  unfold stepsOf partsOf
  rw [splitOn_bytesOf]
  split
  · simp [other, and_comm]
  · simp [and_comm]

theorem dotDot_mem_stepsOf : dotDot ∈ stepsOf (bytesOf path) ↔ ".." ∈ segments path := by
  rw [mem_stepsOf (by decide), dotDot_eq_bytesOf, List.mem_map_of_injective fun _ _ => bytesOf_injective]
  exact and_iff_right (by decide)

theorem bytesOf_eq_nil_iff {s : String} : bytesOf s = [] ↔ s = "" :=
  ⟨fun none => bytesOf_injective none, fun none => by rw [none]; rfl⟩

theorem bytesOf_eq_dot_iff {s : String} : bytesOf s = dot ↔ s = "." := by
  rw [dot_eq_bytesOf]
  exact ⟨fun same => bytesOf_injective same, congrArg bytesOf⟩

theorem stepsOf_filter :
    (stepsOf (bytesOf path)).filter (· ≠ dot) = (pathNames path).map bytesOf := by
  have steps : (stepsOf (bytesOf path)).filter (· ≠ dot) =
      (((segments path).map bytesOf).filter fun s => !s.isEmpty).filter (· ≠ dot) := by
    unfold stepsOf partsOf
    rw [splitOn_bytesOf]
    split
    · simp
    · rfl
  rw [steps, List.filter_filter, List.filter_map, pathNames]
  congr 1
  apply List.filter_congr
  intro s _
  rw [Function.comp_apply, Bool.eq_iff_iff]
  simp [bytesOf_eq_nil_iff, bytesOf_eq_dot_iff, and_comm]

theorem pathNames_of_clean (clean : ∀ name ∈ names, IsCleanName name) :
    pathNames (cleanText names) = names := by
  rw [pathNames_cleanText fun name member => (clean name member).2.2.2, List.filter_eq_self]
  intro name member
  obtain ⟨some, single, _⟩ := clean name member
  simp [some, single]

theorem level_cleanText (clean : ∀ name ∈ names, IsCleanName name) :
    ".." ∉ segments (cleanText names) := by
  rw [segments_cleanText fun name member => (clean name member).2.2.2]
  split
  · decide
  · exact fun climbs => (clean ".." climbs).2.2.1 rfl

theorem pathPlace_level (level : ".." ∉ segments path) :
    pathPlace path = placeFor (pathNames path) := by
  have steps : dotDot ∉ stepsOf (bytesOf path) := fun climbs => level (dotDot_mem_stepsOf.1 climbs)
  rw [pathPlace, placeOf_level steps, stepsOf_filter]
  rfl

theorem there_of_statPath {v : Volume} {node : Node} (linkless : v.Linkless)
    (level : ".." ∉ segments path) (read : v.statPath path = .ok node) :
    v.node? (placeFor (pathNames path)) = some node ∧ Storable (pathNames path) := by
  have steps : dotDot ∉ stepsOf (bytesOf path) := fun climbs => level (dotDot_mem_stepsOf.1 climbs)
  obtain ⟨taken, parsed, stat⟩ := stat_of_statPath read
  obtain ⟨place, found, there⟩ := find_of_stat stat
  cases pathSteps_eq parsed
  obtain ⟨rfl, short⟩ := @place_of_follow v _ [rootName] _ _ linkless steps (follow_of_find found)
  rw [stepsOf_filter] at there short
  refine ⟨there, fun name member => ⟨short _ (List.mem_map_of_mem member), fun nul => ?_⟩⟩
  have inside : 0 ∈ bytesOf path := by
    rw [← joinNames_segments path]
    exact zero_mem_joinNames.2 ⟨name, (List.mem_filter.1 member).1, nul⟩
  unfold pathSteps at parsed
  dsimp only at parsed
  rw [if_pos (by simpa using inside)] at parsed
  cases parsed

end ControlPlane.Transfer
