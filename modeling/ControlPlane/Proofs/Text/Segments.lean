import ControlPlane.Text.Segments
-- Laws of paths as text: splitting at slashes undoes joining, and a cleaned path consists
-- of names alone.
namespace ControlPlane

theorem no_slash_of_mem_segments {path segment : String} (member : segment ∈ segments path) :
    '/' ∉ segment.toList := by
  have parts : ∀ cs : List Char, ∀ part ∈ cs.splitOn '/', '/' ∉ part := by
    intro cs
    induction cs with
    | nil => simp
    | cons c cs ih =>
      intro part present
      rw [List.splitOn_cons_eq_if_modifyHead] at present
      split at present
      · rcases List.mem_cons.1 present with rfl | later
        · simp
        · exact ih part later
      · rename_i other
        obtain ⟨first, rest, split⟩ := List.exists_cons_of_ne_nil (List.splitOn_ne_nil '/' cs)
        rw [split, List.modifyHead_cons] at present
        rw [split] at ih
        rcases List.mem_cons.1 present with rfl | later
        · simpa [eq_comm] using ⟨by simpa using other, ih first (by simp)⟩
        · exact ih part (by simp [later])
  obtain ⟨part, present, rfl⟩ := List.mem_map.1 member
  simpa using parts path.toList part present

theorem segments_of_no_slash {path : String} (plain : '/' ∉ path.toList) :
    segments path = [path] := by
  simp [segments, List.splitOn_eq_singleton plain]

theorem segments_append_slash (a b : String) :
    segments (a ++ "/" ++ b) = segments a ++ segments b := by
  have text : (a ++ "/" ++ b).toList = a.toList ++ '/' :: b.toList := by simp
  simp [segments, text, List.splitOn_append_cons_self]

theorem head_ne_slash {path : String} (solid : "" ∉ segments path) :
    path.toList.head? ≠ some '/' := by
  intro slash
  obtain ⟨rest, whole⟩ := List.head?_eq_some_iff.1 slash
  have text : path = "" ++ "/" ++ String.ofList rest := by
    apply String.toList_injective
    simp [whole]
  rw [text, segments_append_slash] at solid
  exact solid (List.mem_append_left _ (by decide))

theorem last_ne_slash {path : String} (solid : "" ∉ segments path) :
    path.toList.getLast? ≠ some '/' := by
  intro slash
  obtain ⟨front, whole⟩ := List.getLast?_eq_some_iff.1 slash
  have text : path = String.ofList front ++ "/" ++ "" := by
    apply String.toList_injective
    simp [whole]
  rw [text, segments_append_slash] at solid
  exact solid (List.mem_append_right _ (by decide))

theorem segments_joinNames {names : List String} (some : names ≠ [])
    (plain : ∀ name ∈ names, '/' ∉ name.toList) : segments (joinNames names) = names := by
  have lists : ∀ cs ∈ names.map String.toList, '/' ∉ cs := by simpa using plain
  have split := List.splitOn_intercalate '/' lists (by simpa using some)
  simp only [segments, joinNames, String.toList_intercalate]
  rw [show "/".toList = ['/'] from rfl, split]
  simp

theorem joinNames_segments (path : String) : joinNames (segments path) = path := by
  apply String.toList_injective
  rw [joinNames, String.toList_intercalate, segments, List.map_map]
  rw [show "/".toList = ['/'] from rfl, show String.toList ∘ String.ofList = id by ext; simp,
    List.map_id]
  exact List.intercalate_splitOn '/'

theorem joinNames_append {names others : List String} (some : names ≠ []) (more : others ≠ []) :
    joinNames (names ++ others) = joinNames names ++ "/" ++ joinNames others :=
  String.intercalate_append_of_ne_nil some more

theorem joinNames_concat {names : List String} (some : names ≠ []) (name : String) :
    joinNames (names ++ [name]) = joinNames names ++ "/" ++ name := by
  rw [joinNames_append some (List.cons_ne_nil name [])]
  simp [joinNames]

theorem mem_joinNames {names : List String} {c : Char} (member : c ∈ (joinNames names).toList) :
    c = '/' ∨ ∃ name ∈ names, c ∈ name.toList := by
  induction names with
  | nil => simp [joinNames] at member
  | cons name rest ih =>
    by_cases last : rest = []
    · subst last
      exact .inr ⟨name, by simp, by simpa [joinNames] using member⟩
    · have text : joinNames (name :: rest) = name ++ "/" ++ joinNames rest :=
        String.intercalate_cons_of_ne_nil last
      simp only [text, String.toList_append, List.append_assoc, List.mem_append] at member
      rcases member with here | slash | later
      · exact .inr ⟨name, by simp, here⟩
      · exact .inl (List.mem_singleton.1 slash)
      · rcases ih later with slash | ⟨n, present, inside⟩
        · exact .inl slash
        · exact .inr ⟨n, by simp [present], inside⟩

theorem append_slash_ne_dot (a b : String) : a ++ "/" ++ b ≠ "." := by
  intro dot
  have chars := congrArg String.toList dot
  simp only [String.toList_append] at chars
  have slash : '/' ∈ ".".toList := by rw [← chars]; simp
  exact absurd slash (by decide)

theorem joinNames_eq_dot {names : List String} (root : joinNames names = ".") : names = ["."] := by
  match names with
  | [] => simp [joinNames] at root
  | [name] => rw [← root]; simp [joinNames]
  | first :: second :: rest =>
    rw [joinNames, String.intercalate_cons_of_ne_nil (by simp)] at root
    exact absurd root (append_slash_ne_dot _ _)

def IsCleanName (name : String) : Prop :=
  name ≠ "" ∧ name ≠ "." ∧ name ≠ ".." ∧ '/' ∉ name.toList

theorem settle_clean {names : List String} {segment : String}
    (clean : ∀ name ∈ names, IsCleanName name) (plain : '/' ∉ segment.toList) :
    ∀ name ∈ settle names segment, IsCleanName name := by
  unfold settle
  split
  · exact clean
  · rename_i solid
    split
    · exact fun name member => clean name ((List.dropLast_sublist names).subset member)
    · rename_i stays
      intro name member
      rcases List.mem_append.1 member with old | new
      · exact clean name old
      · cases List.mem_singleton.1 new
        exact ⟨fun h => solid (.inl h), fun h => solid (.inr h), stays, plain⟩

theorem foldl_settle_clean {parts names : List String}
    (clean : ∀ name ∈ names, IsCleanName name) (plain : ∀ part ∈ parts, '/' ∉ part.toList) :
    ∀ name ∈ parts.foldl settle names, IsCleanName name := by
  induction parts generalizing names with
  | nil => exact clean
  | cons part parts ih =>
    exact ih (settle_clean clean (plain part (by simp))) fun p member => plain p (by simp [member])

theorem cleanNames_clean {parts : List String} (plain : ∀ part ∈ parts, '/' ∉ part.toList) :
    ∀ name ∈ cleanNames parts, IsCleanName name :=
  foldl_settle_clean (by simp) plain

theorem cleanNames_segments_clean (a b : String) :
    ∀ name ∈ cleanNames (segments a ++ segments b), IsCleanName name := by
  apply cleanNames_clean
  intro part member
  rcases List.mem_append.1 member with left | right
  · exact no_slash_of_mem_segments left
  · exact no_slash_of_mem_segments right

theorem cleanNames_append {parts names : List String}
    (clean : ∀ name ∈ names, IsCleanName name) :
    cleanNames (parts ++ names) = cleanNames parts ++ names := by
  unfold cleanNames
  rw [List.foldl_append]
  generalize parts.foldl settle [] = front
  induction names generalizing front with
  | nil => simp
  | cons name rest ih =>
    obtain ⟨some, single, double, _⟩ := clean name (by simp)
    rw [List.foldl_cons, settle, if_neg (by simp [some, single]), if_neg double,
      ih fun n member => clean n (by simp [member])]
    simp

theorem cleanNames_dropSlashes (parts : List String) (cs : List Char) :
    cleanNames (parts ++ segments (String.ofList (cs.dropWhile (· == '/')))) =
      cleanNames (parts ++ segments (String.ofList cs)) := by
  induction cs with
  | nil => rfl
  | cons c rest ih =>
    by_cases slash : c = '/'
    · subst slash
      rw [List.dropWhile_cons_of_pos (by rfl), ih]
      have parts : segments (String.ofList ('/' :: rest)) =
          "" :: segments (String.ofList rest) := by
        simp [segments, List.splitOn_cons_eq_if_modifyHead]
      rw [parts]
      simp [cleanNames, settle]
    · rw [List.dropWhile_cons_of_neg (by simpa using slash)]

theorem segments_cleanText {names : List String} (plain : ∀ name ∈ names, '/' ∉ name.toList) :
    segments (cleanText names) = if names.isEmpty then ["."] else names := by
  unfold cleanText
  split
  · exact segments_of_no_slash (by decide)
  · rename_i some
    exact segments_joinNames (by simpa using some) plain

end ControlPlane
