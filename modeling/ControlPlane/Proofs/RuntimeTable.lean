import ControlPlane.RuntimeTable
-- Which ids a table has after each of its operations.
namespace ControlPlane

namespace RuntimeTable

variable {α : Type}

theorem has_iff (t : RuntimeTable α) (id : RuntimeId) : t.has id = true ↔ id ∈ t.map (·.1) := by
  unfold has get?
  induction t with
  | nil => exact iff_of_false nofun List.not_mem_nil
  | cons e t ih =>
    rw [List.lookup_cons, List.map_cons, List.mem_cons]
    cases same : id == e.1 with
    | true => exact iff_of_true rfl (.inl (eq_of_beq same))
    | false =>
      rw [or_iff_right (ne_of_beq_false same)]
      exact ih

theorem map_fst_put (t : RuntimeTable α) (id : RuntimeId) (a : α) (new : id ∉ t.map (·.1)) :
    (t.put id a).map (·.1) = t.map (·.1) ++ [id] := by
  induction t with
  | nil => rfl
  | cons e t ih =>
    rw [List.map_cons, List.mem_cons, not_or] at new
    rw [put, if_neg (Ne.symm new.1), List.map_cons, ih new.2]
    rfl

theorem has_put_iff (t : RuntimeTable α) (id other : RuntimeId) (a : α) :
    (t.put id a).has other = true ↔ other = id ∨ t.has other = true := by
  rw [has_iff, has_iff]
  induction t with
  | nil => simp [put]
  | cons e t ih =>
    unfold put
    split
    · rename_i same
      simp [same]
    · rw [List.map_cons, List.map_cons, List.mem_cons, List.mem_cons, ih, or_left_comm]

theorem map_fst_modify (t : RuntimeTable α) (id : RuntimeId) (f : α → α) :
    (t.modify id f).map (·.1) = t.map (·.1) := by
  rw [modify, List.map_map]
  refine List.map_congr_left fun e _ => ?_
  simp only [Function.comp_apply]
  split <;> rfl

theorem has_modify (t : RuntimeTable α) (id other : RuntimeId) (f : α → α) :
    (t.modify id f).has other = t.has other := by
  rw [Bool.eq_iff_iff, has_iff, has_iff, map_fst_modify]

theorem map_fst_erase (t : RuntimeTable α) (id : RuntimeId) :
    (t.erase id).map (·.1) = (t.map (·.1)).filter (· ≠ id) := by
  rw [erase, List.filter_map]
  rfl

theorem has_erase_iff (t : RuntimeTable α) (id other : RuntimeId) :
    (t.erase id).has other = true ↔ other ≠ id ∧ t.has other = true := by
  rw [has_iff, has_iff, map_fst_erase, List.mem_filter, decide_eq_true_iff]
  exact and_comm

theorem get?_put (t : RuntimeTable α) (id : RuntimeId) (a : α) : (t.put id a).get? id = some a := by
  induction t with
  | nil => simp [put, get?]
  | cons e t ih =>
    unfold put
    split
    · simp [get?]
    · rename_i other
      rw [get?, List.lookup_cons, beq_false_of_ne (Ne.symm other)]
      exact ih

theorem get?_modify (t : RuntimeTable α) (id : RuntimeId) (f : α → α) :
    (t.modify id f).get? id = (t.get? id).map f := by
  induction t with
  | nil => rfl
  | cons e t ih =>
    obtain ⟨i, a⟩ := e
    simp only [modify, get?] at ih
    by_cases same : i = id
    · simp [modify, get?, same]
    · simp [modify, get?, same, List.lookup_cons, beq_false_of_ne (Ne.symm same), ih]

theorem get?_put_of_ne (t : RuntimeTable α) {id other : RuntimeId} (apart : other ≠ id) (a : α) :
    (t.put id a).get? other = t.get? other := by
  induction t with
  | nil => simp [put, get?, List.lookup_cons, beq_false_of_ne apart]
  | cons e t ih =>
    obtain ⟨i, b⟩ := e
    simp only [get?] at ih
    by_cases same : i = id
    · simp [put, get?, same, List.lookup_cons, beq_false_of_ne apart]
    · simp [put, get?, same, List.lookup_cons, ih]

def edit (t : RuntimeTable α) (id : RuntimeId) (change : α → Option α) : RuntimeTable α :=
  t.filterMap fun e => if e.1 = id then (change e.2).map (e.1, ·) else some e

theorem edit_some (t : RuntimeTable α) (id : RuntimeId) : t.edit id some = t := by
  have same : (fun e : RuntimeId × α => if e.1 = id then (some e.2).map (e.1, ·) else some e) =
      some := by
    funext e
    split <;> rfl
  rw [edit, same, List.filterMap_some]

theorem modify_eq_edit (t : RuntimeTable α) (id : RuntimeId) (f : α → α) :
    t.modify id f = t.edit id fun a => some (f a) := by
  rw [modify, edit, ← List.filterMap_eq_map]
  congr 1
  funext e
  simp only [Function.comp_apply]
  split <;> rfl

theorem erase_eq_edit (t : RuntimeTable α) (id : RuntimeId) :
    t.erase id = t.edit id fun _ => none := by
  rw [erase, edit, ← List.filterMap_eq_filter]
  congr 1
  funext e
  by_cases same : e.1 = id <;> simp [Option.guard, same]

theorem edit_comm (t : RuntimeTable α) {id other : RuntimeId} (apart : id ≠ other)
    (change second : α → Option α) :
    (t.edit id change).edit other second = (t.edit other second).edit id change := by
  rw [edit, edit, edit, edit, List.filterMap_filterMap, List.filterMap_filterMap]
  congr 1
  funext e
  obtain ⟨i, a⟩ := e
  by_cases same : i = id
  · cases changed : change a <;> simp [same, apart, changed]
  · by_cases here : i = other
    · cases changed : second a <;> simp [here, Ne.symm apart, changed]
    · simp [same, here]

theorem get?_edit_of_ne (t : RuntimeTable α) {id other : RuntimeId} (apart : other ≠ id)
    (change : α → Option α) : (t.edit id change).get? other = t.get? other := by
  induction t with
  | nil => rfl
  | cons e t ih =>
    obtain ⟨i, a⟩ := e
    simp only [get?, edit] at ih
    by_cases same : i = id
    · cases changed : change a <;>
        simp [get?, edit, same, changed, List.lookup_cons, beq_false_of_ne apart, ih]
    · simp [get?, edit, same, List.lookup_cons, ih]

end RuntimeTable

end ControlPlane
