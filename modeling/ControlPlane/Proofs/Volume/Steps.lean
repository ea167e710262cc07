import ControlPlane.Proofs.Volume.Names
-- The steps of a path: there are some unless the path is empty, and names between slashes
-- are read back as they are.
namespace ControlPlane

theorem slash_notMem_bytesOf {name : String} (plain : '/' ∉ name.toList) : 47 ∉ bytesOf name :=
  fun member => plain (Utf8.mem_of_mem_encode (by decide) member)

theorem bytesOf_append_slash (a b : String) :
    bytesOf (a ++ "/" ++ b) = bytesOf a ++ 47 :: bytesOf b := by
  simp only [bytesOf, String.toList_append, Utf8.encode_append, List.append_assoc]
  rfl

theorem splitOn_joinNames {names : List String} (some : names ≠ [])
    (plain : ∀ name ∈ names, '/' ∉ name.toList) :
    (bytesOf (joinNames names)).splitOn 47 = names.map bytesOf := by
  induction names with
  | nil => exact absurd rfl some
  | cons name rest ih =>
    have here := slash_notMem_bytesOf (plain name (by simp))
    by_cases last : rest = []
    · subst last
      rw [show joinNames [name] = name by simp [joinNames]]
      exact List.splitOn_eq_singleton here
    · rw [show joinNames (name :: rest) = name ++ "/" ++ joinNames rest from
        String.intercalate_cons_of_ne_nil last, bytesOf_append_slash,
        List.splitOn_append_cons_self, List.splitOn_eq_singleton here,
        ih last fun n member => plain n (by simp [member])]
      rfl

theorem partsOf_of_splitOn {path : Bytes} {steps : List Name} (parts : path.splitOn 47 = steps)
    (solid : ∀ step ∈ steps, step ≠ []) : partsOf path = steps := by
  rw [partsOf, parts, List.filter_eq_self]
  intro step member
  simpa using solid step member

theorem stepsOf_of_splitOn {path : Bytes} {steps : List Name} (parts : path.splitOn 47 = steps)
    (solid : ∀ step ∈ steps, step ≠ []) : stepsOf path = steps := by
  have open_ : path.getLast? ≠ some 47 := by
    intro slash
    obtain ⟨front, whole⟩ := List.getLast?_eq_some_iff.1 slash
    rw [whole, List.splitOn_append_cons_self] at parts
    exact solid [] (by rw [← parts]; simp) rfl
  rw [stepsOf, if_neg open_, partsOf_of_splitOn parts solid]

theorem partsOf_ne_nil {path : Bytes} (some : path ≠ []) (relative : path.head? ≠ .some 47) :
    partsOf path ≠ [] := by
  obtain ⟨b, rest, rfl⟩ := List.exists_cons_of_ne_nil some
  have solid : ¬ (b == 47) = true := by simpa using relative
  obtain ⟨first, others, parts⟩ := List.exists_cons_of_ne_nil (List.splitOn_ne_nil 47 rest)
  rw [partsOf, List.splitOn_cons_eq_if_modifyHead, if_neg solid, parts]
  simp

theorem steps_joinNames {names : List String} (some : names ≠ [])
    (clean : ∀ name ∈ names, IsCleanName name) :
    stepsOf (bytesOf (joinNames names)) = names.map bytesOf ∧
      partsOf (bytesOf (joinNames names)) = names.map bytesOf := by
  have split := splitOn_joinNames some fun name member => (clean name member).2.2.2
  have solid : ∀ step ∈ names.map bytesOf, step ≠ [] := by
    intro step member
    obtain ⟨name, present, rfl⟩ := List.mem_map.1 member
    exact bytesOf_ne_nil (clean name present).1
  exact ⟨stepsOf_of_splitOn split solid, partsOf_of_splitOn split solid⟩

end ControlPlane
