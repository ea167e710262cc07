import ControlPlane.Metadata
-- Tag and label sets are put together again from what they hold.
namespace ControlPlane

theorem lookup_of_mem {α : Type} {entries : List (String × α)} {name : String} {a : α}
    (distinct : (entries.map (·.1)).Nodup) (member : (name, a) ∈ entries) :
    entries.lookup name = some a := by
  obtain ⟨before, after, rfl⟩ := List.append_of_mem member
  refine List.lookup_eq_some_iff.2 ⟨before, after, rfl, ?_⟩
  intro earlier old
  rw [List.map_append, List.nodup_append] at distinct
  have differ : earlier.1 ≠ name :=
    distinct.2.2 _ (List.mem_map_of_mem old) _ (by simp)
  exact bne_iff_ne.2 differ.symm

theorem insertTag_last {name value : String} {entries : List (String × String)}
    (above : ∀ e ∈ entries, e.1 < name) :
    insertTag name value entries = entries ++ [(name, value)] := by
  induction entries with
  | nil => rfl
  | cons head rest ih =>
    obtain ⟨n, v⟩ := head
    have higher : n < name := above (n, v) (by simp)
    have lower : ¬ name < n := String.lt_asymm higher
    simp [insertTag, higher, lower, ih fun e member => above e (by simp [member])]

namespace Tags

theorem entries_insertAll (tags : Tags) (more : List (String × String))
    (sorted : (tags.entries ++ more).Pairwise fun a b => a.1 < b.1) :
    (tags.insertAll more).entries = tags.entries ++ more := by
  induction more generalizing tags with
  | nil => simp [insertAll]
  | cons e more ih =>
    obtain ⟨_, _, above⟩ := List.pairwise_append.mp sorted
    have next : (tags.insert e.1 e.2).entries = tags.entries ++ [e] := by
      apply insertTag_last
      intro old member
      exact above old member e (by simp)
    have rest := ih (tags.insert e.1 e.2) (by simpa [next] using sorted)
    rw [next, List.append_assoc] at rest
    exact rest

theorem ofList_entries (tags : Tags) : ofList tags.entries = tags := by
  have same : (ofList tags.entries).entries = tags.entries :=
    entries_insertAll empty tags.entries tags.sorted
  cases made : ofList tags.entries with
  | mk others _ =>
    rw [made] at same
    cases same
    rfl

end Tags

theorem insertLabel_last {label : String} {labels : List String} (above : ∀ l ∈ labels, l < label) :
    insertLabel label labels = labels ++ [label] := by
  induction labels with
  | nil => rfl
  | cons head rest ih =>
    have higher : head < label := above head (by simp)
    have lower : ¬ label < head := String.lt_asymm higher
    simp [insertLabel, higher, lower, ih fun l member => above l (by simp [member])]

theorem mem_insertLabel_iff {label l : String} {labels : List String} :
    l ∈ insertLabel label labels ↔ l = label ∨ l ∈ labels := by
  induction labels with
  | nil => simp [insertLabel]
  | cons head rest ih =>
    unfold insertLabel
    split
    · exact List.mem_cons
    · split
      · rw [List.mem_cons, List.mem_cons, ih, or_left_comm]
      · rename_i notLower notHigher
        cases not_lt_both notLower notHigher
        rw [List.mem_cons, ← or_assoc, or_self]

namespace Labels

theorem mem_insertAll {labels : Labels} {more : List String} {l : String} :
    l ∈ (labels.insertAll more).names ↔ l ∈ more ∨ l ∈ labels.names := by
  induction more generalizing labels with
  | nil => simp [insertAll]
  | cons label more ih =>
    have rest : l ∈ ((labels.insert label).insertAll more).names ↔ _ := ih
    rw [List.mem_cons, or_assoc, or_left_comm]
    rwa [insert, mem_insertLabel_iff] at rest

theorem mem_ofList {names : List String} {l : String} : l ∈ (ofList names).names ↔ l ∈ names := by
  rw [ofList, mem_insertAll]
  simp [empty]

theorem names_insertAll (labels : Labels) (more : List String)
    (sorted : (labels.names ++ more).Pairwise fun a b => a < b) :
    (labels.insertAll more).names = labels.names ++ more := by
  induction more generalizing labels with
  | nil => simp [insertAll]
  | cons l more ih =>
    obtain ⟨_, _, above⟩ := List.pairwise_append.mp sorted
    have next : (labels.insert l).names = labels.names ++ [l] := by
      apply insertLabel_last
      intro old member
      exact above old member l (by simp)
    have rest := ih (labels.insert l) (by simpa [next] using sorted)
    rw [next, List.append_assoc] at rest
    exact rest

theorem ofList_names (labels : Labels) : ofList labels.names = labels := by
  have same : (ofList labels.names).names = labels.names :=
    names_insertAll empty labels.names labels.sorted
  cases made : ofList labels.names with
  | mk others _ =>
    rw [made] at same
    cases same
    rfl

end Labels

end ControlPlane
