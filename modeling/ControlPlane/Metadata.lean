-- Tags and labels, kept in strictly increasing order, so that equal contents are equal
-- values.
namespace ControlPlane

def insertTag (name value : String) : List (String × String) → List (String × String)
  | [] => [(name, value)]
  | (n, v) :: rest =>
    if name < n then (name, value) :: (n, v) :: rest
    else if n < name then (n, v) :: insertTag name value rest
    else (name, value) :: rest

def insertLabel (label : String) : List String → List String
  | [] => [label]
  | l :: rest =>
    if label < l then label :: l :: rest
    else if l < label then l :: insertLabel label rest
    else l :: rest

theorem not_lt_both {a b : String} (h : ¬ a < b) (h' : ¬ b < a) : a = b :=
  String.le_antisymm (String.not_lt.1 h') (String.not_lt.1 h)

theorem mem_insertTag {name value : String} {entries : List (String × String)}
    {e : String × String} (h : e ∈ insertTag name value entries) :
    e = (name, value) ∨ e ∈ entries := by
  induction entries with
  | nil => simpa [insertTag] using h
  | cons head rest ih =>
    obtain ⟨n, v⟩ := head
    simp only [insertTag] at h
    split at h
    · simpa using h
    · split at h
      · rcases List.mem_cons.1 h with h | h
        · exact .inr (by simp [h])
        · rcases ih h with h | h
          · exact .inl h
          · exact .inr (by simp [h])
      · rcases List.mem_cons.1 h with h | h
        · exact .inl h
        · exact .inr (by simp [h])

theorem insertTag_sorted {name value : String} {entries : List (String × String)}
    (sorted : entries.Pairwise fun a b => a.1 < b.1) :
    (insertTag name value entries).Pairwise fun a b => a.1 < b.1 := by
  induction entries with
  | nil => simp [insertTag]
  | cons head rest ih =>
    obtain ⟨n, v⟩ := head
    obtain ⟨above, later⟩ := List.pairwise_cons.1 sorted
    simp only [insertTag]
    split
    · rename_i lower
      refine List.pairwise_cons.2 ⟨?_, List.pairwise_cons.2 ⟨above, later⟩⟩
      intro e member
      rcases List.mem_cons.1 member with h | h
      · simpa [h] using lower
      · exact String.lt_trans lower (above e h)
    · split
      · rename_i higher
        refine List.pairwise_cons.2 ⟨?_, ih later⟩
        intro e member
        rcases mem_insertTag member with h | h
        · simpa [h] using higher
        · exact above e h
      · rename_i notLower notHigher
        cases not_lt_both notLower notHigher
        exact List.pairwise_cons.2 ⟨above, later⟩

theorem mem_insertLabel {label : String} {labels : List String} {l : String}
    (h : l ∈ insertLabel label labels) : l = label ∨ l ∈ labels := by
  induction labels with
  | nil => simpa [insertLabel] using h
  | cons head rest ih =>
    simp only [insertLabel] at h
    split at h
    · simpa using h
    · split at h
      · rcases List.mem_cons.1 h with h | h
        · exact .inr (by simp [h])
        · rcases ih h with h | h
          · exact .inl h
          · exact .inr (by simp [h])
      · exact .inr h

theorem insertLabel_sorted {label : String} {labels : List String}
    (sorted : labels.Pairwise fun a b => a < b) :
    (insertLabel label labels).Pairwise fun a b => a < b := by
  induction labels with
  | nil => simp [insertLabel]
  | cons head rest ih =>
    obtain ⟨above, later⟩ := List.pairwise_cons.1 sorted
    simp only [insertLabel]
    split
    · rename_i lower
      refine List.pairwise_cons.2 ⟨?_, List.pairwise_cons.2 ⟨above, later⟩⟩
      intro l member
      rcases List.mem_cons.1 member with h | h
      · simpa [h] using lower
      · exact String.lt_trans lower (above l h)
    · split
      · rename_i higher
        refine List.pairwise_cons.2 ⟨?_, ih later⟩
        intro l member
        rcases mem_insertLabel member with h | h
        · simpa [h] using higher
        · exact above l h
      · exact List.pairwise_cons.2 ⟨above, later⟩

structure Tags where
  entries : List (String × String)
  sorted : entries.Pairwise fun a b => a.1 < b.1
deriving DecidableEq

namespace Tags

def empty : Tags := ⟨[], .nil⟩

def insert (tags : Tags) (name value : String) : Tags :=
  ⟨insertTag name value tags.entries, insertTag_sorted tags.sorted⟩

def insertAll (tags : Tags) (entries : List (String × String)) : Tags :=
  entries.foldl (fun tags e => tags.insert e.1 e.2) tags

def ofList (entries : List (String × String)) : Tags := empty.insertAll entries

def get? (tags : Tags) (name : String) : Option String := tags.entries.lookup name

end Tags

structure Labels where
  names : List String
  sorted : names.Pairwise fun a b => a < b
deriving DecidableEq

namespace Labels

def empty : Labels := ⟨[], .nil⟩

def insert (labels : Labels) (label : String) : Labels :=
  ⟨insertLabel label labels.names, insertLabel_sorted labels.sorted⟩

def insertAll (labels : Labels) (names : List String) : Labels := names.foldl insert labels

def ofList (names : List String) : Labels := empty.insertAll names

end Labels

end ControlPlane
