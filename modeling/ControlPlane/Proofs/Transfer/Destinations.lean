import ControlPlane.Proofs.Transfer.Starts
import ControlPlane.Proofs.Volume.Ways
-- A plain source sends its files to places of their own: what distinguishes two of them
-- is the names below the start, and these stay at the end of the destination.
namespace ControlPlane.Transfer

def behind (path : String) (names : List String) : String :=
  names.foldl (fun path name => path ++ "/" ++ name) path

theorem behind_cons (path name : String) (names : List String) :
    behind path (name :: names) = behind (path ++ "/" ++ name) names := rfl

theorem behind_append (a b : String) (names : List String) :
    behind (a ++ b) names = a ++ behind b names := by
  induction names generalizing b with
  | nil => rfl
  | cons name rest ih =>
    rw [behind_cons, behind_cons, ← ih, ← String.append_assoc, ← String.append_assoc]

theorem segments_behind {path : String} {names : List String}
    (plain : ∀ name ∈ names, '/' ∉ name.toList) :
    segments (behind path names) = segments path ++ names := by
  induction names generalizing path with
  | nil => simp [behind]
  | cons name rest ih =>
    rw [behind_cons, ih fun n member => plain n (by simp [member]), segments_append_slash,
      segments_of_no_slash (plain name (by simp)), List.append_assoc]
    rfl

theorem descend_eq_behind {start : String} {names : List String} (inner : start ≠ ".")
    (clean : ∀ name ∈ names, IsCleanName name) : descend start names = behind start names := by
  induction names generalizing start with
  | nil => rfl
  | cons name rest ih =>
    have deeper : childPath start name ≠ "." := childPath_ne_root (clean name (by simp))
    have next := ih deeper fun n member => clean n (by simp [member])
    rw [childPath, if_neg inner] at next
    rw [behind_cons, ← next, descend, List.foldl_cons, childPath, if_neg inner]
    rfl

theorem cleanNames_childPath {parts : List String} {path name : String}
    (clean : IsCleanName name) : cleanNames (parts ++ segments (childPath path name)) =
      cleanNames (parts ++ segments path) ++ [name] := by
  have alone : segments name = [name] := segments_of_no_slash clean.2.2.2
  have single : ∀ n ∈ [name], IsCleanName n := by simpa using clean
  unfold childPath
  split
  · rename_i root
    rw [alone, cleanNames_append single, root, show segments "." = ["."] from rfl]
    simp [cleanNames, settle]
  · rw [segments_append_slash, alone, ← List.append_assoc, cleanNames_append single]

def IsBase (start base : String) : Prop :=
  base = "." ∨ (base ≠ "." ∧ start ≠ "." ∧ ∃ rest, start = base ++ rest)

theorem stripBase_append {base rest : String} (inner : base ≠ ".") :
    stripBase (base ++ rest) base = String.ofList (rest.toList.dropWhile (· == '/')) := by
  unfold stripBase
  rw [if_neg inner, String.toList_append, if_pos (by simp), List.drop_left]

theorem cleanNames_stripBase {start base : String} (parts : List String)
    (isBase : IsBase start base) : ∃ front, ∀ names, (∀ name ∈ names, IsCleanName name) →
      cleanNames (parts ++ segments (stripBase (descend start names) base)) = front ++ names := by
  rcases isBase with rfl | ⟨other, inner, rest, rfl⟩
  · refine ⟨cleanNames (parts ++ segments start), fun names clean => ?_⟩
    rw [stripBase, if_pos rfl]
    exact descend_appends (fun path => cleanNames (parts ++ segments path))
      (fun _ _ one => cleanNames_childPath one) start clean
  · refine ⟨cleanNames (parts ++ segments rest), fun names clean => ?_⟩
    rw [descend_eq_behind inner clean, behind_append, stripBase_append other,
      cleanNames_dropSlashes, String.ofList_toList,
      segments_behind fun name member => (clean name member).2.2.2, ← List.append_assoc,
      cleanNames_append clean]

theorem isBase_self (start : String) : IsBase start start := by
  by_cases root : start = "."
  · exact .inl root
  · exact .inr ⟨root, root, "", by simp⟩

theorem isBase_parentOf (start : String) : IsBase start (parentOf start) := by
  by_cases root : parentOf start = "."
  · exact .inl root
  · have some : (segments start).dropLast ≠ [] := by
      intro none
      exact root (by simp [parentOf, none])
    have base : parentOf start = joinNames (segments start).dropLast := by simp [parentOf, some]
    refine .inr ⟨root, ?_, ?_⟩
    · rintro rfl
      exact root rfl
    · obtain ⟨front, last, parts⟩ := (List.eq_nil_or_concat (segments start)).resolve_left
        fun none => some (by rw [none]; rfl)
      rw [List.concat_eq_append] at parts
      rw [parts, List.dropLast_concat] at some base
      refine ⟨"/" ++ last, ?_⟩
      rw [base, ← String.append_assoc, ← joinNames_concat some, ← parts, joinNames_segments]

variable {v : Volume} {excludes : List Pattern} {start dest : String}
  {entries : List TransferEntry}

def KeepsNames (start : String) (front : List String) (entry : TransferEntry) : Prop :=
  ∃ names, entry.src = descend start names ∧ entry.dest = joinNames (front ++ names) ∧
    front ++ names ≠ [] ∧ ∀ name ∈ front ++ names, IsCleanName name

theorem keepsNames_entriesFor {base : String} {found some : List (String × Bool)}
    (named : v.WellNamed) (given : dest ≠ "") (isBase : IsBase start base)
    (walked : walkFrom v excludes v.levels start = .ok found) (part : some ⊆ found) :
    ∃ front, ∀ entry ∈ entriesFor dest base some, KeepsNames start front entry := by
  obtain ⟨front, all⟩ := cleanNames_stripBase (segments dest) isBase
  refine ⟨front, fun entry member => ?_⟩
  obtain ⟨present, dest_eq, inner⟩ := mem_entriesFor member
  have below : Below v excludes start entry.src := (below_of_walkFrom walked _ (part present)).1
  obtain ⟨names, src, clean, _⟩ := below.descends named
  have whole := all names clean
  rw [dest_eq, destFor, if_neg given, cleanJoin, src, whole] at inner
  have nonempty : front ++ names ≠ [] := fun none => inner (by rw [none]; rfl)
  refine ⟨names, src, ?_, nonempty, ?_⟩
  · rw [dest_eq, destFor, if_neg given, cleanJoin, src, whole]
    simp [cleanText, nonempty]
  · rw [← whole]
    exact cleanNames_segments_clean _ _

theorem Sourced.keepsNames (named : v.WellNamed) (given : dest ≠ "")
    (sourced : Sourced v excludes start dest entries) :
    (∃ only, ∀ entry ∈ entries, entry = only) ∨
      ∃ front, ∀ entry ∈ entries, KeepsNames start front entry := by
  cases sourced with
  | contents walked =>
    refine .inr (keepsNames_entriesFor named given (isBase_self start) walked ?_)
    exact List.filter_subset_self _
  | directory _ walked base_eq =>
    refine .inr (keepsNames_entriesFor named given ?_ walked (List.Subset.refl _))
    rcases base_eq with rfl | rfl
    · exact isBase_self _
    · exact isBase_parentOf start
  | file => exact .inl ⟨_, fun entry member => (mem_planFile member).2⟩

theorem Sourced.src_eq (named : v.WellNamed) (given : dest ≠ "")
    (sourced : Sourced v excludes start dest entries) {one two : TransferEntry}
    (first : one ∈ entries) (second : two ∈ entries)
    (same : Volume.pathPlace one.dest = Volume.pathPlace two.dest) : one.src = two.src := by
  rcases sourced.keepsNames named given with ⟨only, all⟩ | ⟨front, all⟩
  · rw [all one first, all two second]
  · obtain ⟨names, src, dest_eq, some, clean⟩ := all one first
    obtain ⟨names', src', dest_eq', some', clean'⟩ := all two second
    rw [dest_eq, dest_eq', Volume.pathPlace_joinNames some clean,
      Volume.pathPlace_joinNames some' clean', List.cons.injEq] at same
    have texts := List.map_injective_iff.2 (fun _ _ => bytesOf_injective) same.2
    rw [src, src', List.append_cancel_left texts]

end ControlPlane.Transfer
