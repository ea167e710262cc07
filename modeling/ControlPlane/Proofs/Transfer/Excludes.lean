import ControlPlane.Proofs.Transfer.Starts
-- What the excludes keep out of a plan.
namespace ControlPlane.Transfer

def pathNames (path : String) : List String :=
  (segments path).filter fun s => s ≠ "" ∧ s ≠ "."

-- The path or a directory above it matches an exclude.
def Covered (excludes : List Pattern) (path : String) : Prop :=
  ∃ front, front <+: pathNames path ∧ front ≠ [] ∧ isExcluded excludes (joinNames front) = true

def IsStraight (path : String) : Prop := cleanText (pathNames path) = path

variable {v : Volume} {excludes : List Pattern} {start path src name : String}
  {names : List String} {opts : TransferOpts} {entries : List TransferEntry}

theorem pathNames_solid : ∀ name ∈ pathNames path, name ≠ "" ∧ name ≠ "." ∧ '/' ∉ name.toList := by
  intro name member
  obtain ⟨present, solid⟩ := List.mem_filter.1 member
  simp only [ne_eq, decide_eq_true_eq] at solid
  exact ⟨solid.1, solid.2, no_slash_of_mem_segments present⟩

theorem pathNames_cleanText (plain : ∀ name ∈ names, '/' ∉ name.toList) :
    pathNames (cleanText names) = names.filter fun s => s ≠ "" ∧ s ≠ "." := by
  rw [pathNames, segments_cleanText plain]
  split
  · rename_i none
    rw [List.isEmpty_iff.1 none]
    rfl
  · rfl

theorem pathNames_name (clean : IsCleanName name) : pathNames name = [name] := by
  rw [pathNames, segments_of_no_slash clean.2.2.2]
  simp [clean.1, clean.2.1]

theorem pathNames_childPath (clean : IsCleanName name) :
    pathNames (childPath path name) = pathNames path ++ [name] := by
  unfold childPath
  split
  · rename_i root
    rw [root, pathNames_name clean]
    rfl
  · rw [← pathNames_name clean, pathNames, segments_append_slash, List.filter_append]
    rfl

theorem pathNames_descend (clean : ∀ name ∈ names, IsCleanName name) :
    pathNames (descend start names) = pathNames start ++ names :=
  descend_appends pathNames (fun _ _ one => pathNames_childPath one) start clean

theorem Covered.descend (clean : ∀ name ∈ names, IsCleanName name)
    (above : Covered excludes (parentOf start)) : Covered excludes (descend start names) := by
  obtain ⟨front, part, some, excluded⟩ := above
  have plain : ∀ name ∈ (segments start).dropLast, '/' ∉ name.toList :=
    fun _ member => no_slash_of_mem_segments (List.dropLast_subset _ member)
  have parent : pathNames (parentOf start) <+: pathNames start := by
    rw [show parentOf start = cleanText (segments start).dropLast from rfl,
      pathNames_cleanText plain]
    exact (List.dropLast_prefix _).filter _
  refine ⟨front, ?_, some, excluded⟩
  rw [pathNames_descend clean]
  exact (part.trans parent).trans (List.prefix_append ..)

theorem childPath_cleanText (solid : ∀ name ∈ names, name ≠ ".") :
    childPath (cleanText names) name = cleanText (names ++ [name]) := by
  by_cases none : names = []
  · subst none
    simp [cleanText, childPath, joinNames]
  · have inner : joinNames names ≠ "." := by
      intro root
      rw [joinNames_eq_dot root] at solid
      exact solid "." (by simp) rfl
    simp [cleanText, none, childPath, inner, joinNames_concat none]

theorem descend_cleanText {more : List String} (solid : ∀ name ∈ names, name ≠ ".")
    (clean : ∀ name ∈ more, IsCleanName name) :
    descend (cleanText names) more = cleanText (names ++ more) := by
  induction more generalizing names with
  | nil => simp [descend]
  | cons name rest ih =>
    have both : ∀ n ∈ names ++ [name], n ≠ "." := by
      intro n member
      rcases List.mem_append.1 member with old | new
      · exact solid n old
      · cases List.mem_singleton.1 new
        exact (clean name (by simp)).2.1
    have later := ih both fun n member => clean n (by simp [member])
    rw [← childPath_cleanText solid, List.append_assoc] at later
    exact later

theorem IsStraight.pathNames_parentOf (straight : IsStraight start) :
    pathNames (parentOf start) = (pathNames start).dropLast := by
  have plain : ∀ name ∈ pathNames start, '/' ∉ name.toList :=
    fun name member => (pathNames_solid name member).2.2
  have front : parentOf start = cleanText (pathNames start).dropLast := by
    show cleanText (segments start).dropLast = _
    rw [← congrArg segments straight, segments_cleanText plain]
    split
    · rename_i none
      rw [List.isEmpty_iff.1 none]
      rfl
    · rfl
  rw [front, pathNames_cleanText fun name member => plain name (List.dropLast_subset _ member),
    List.filter_eq_self]
  intro name member
  obtain ⟨some, other, _⟩ := pathNames_solid name (List.dropLast_subset _ member)
  simp [some, other]

theorem prefix_dropLast {front all : List String} (part : front <+: all) (other : front ≠ all) :
    front <+: all.dropLast := by
  rcases List.eq_nil_or_concat all with rfl | ⟨rest, last, rfl⟩
  · exact part
  · rw [List.concat_eq_append] at part other ⊢
    rw [List.dropLast_concat]
    exact (List.prefix_concat_iff.1 part).resolve_left other

-- From a straight start a walk keeps the excludes: what it finds is covered only if the
-- directory above the start is.
theorem IsStraight.covered_descend (straight : IsStraight start)
    (clean : ∀ name ∈ names, IsCleanName name)
    (passes : ∀ front, front <+: names → Passes excludes (descend start front)) :
    Covered excludes (descend start names) ↔ Covered excludes (parentOf start) := by
  refine ⟨?_, Covered.descend clean⟩
  rintro ⟨front, part, some, excluded⟩
  rw [pathNames_descend clean] at part
  have solid : ∀ name ∈ pathNames start, name ≠ "." :=
    fun name member => (pathNames_solid name member).2.1
  -- A walk has seen every path that is no longer than its start and turned none away.
  have seen : ∀ more, more <+: names → front ≠ pathNames start ++ more := by
    rintro more less rfl
    have path : descend start more = joinNames (pathNames start ++ more) := by
      conv => lhs; rw [← straight]
      rw [descend_cleanText solid fun name member => clean name (less.subset member)]
      simp [cleanText, some]
    rcases path ▸ passes more less with root | kept
    · have single : "." ∈ pathNames start ++ more := by simp [joinNames_eq_dot root]
      rcases List.mem_append.1 single with old | new
      · exact solid "." old rfl
      · exact (clean "." (less.subset new)).2.1 rfl
    · rw [kept] at excluded
      cases excluded
  refine ⟨front, ?_, some, excluded⟩
  rw [straight.pathNames_parentOf]
  rcases List.prefix_or_prefix_of_prefix part (List.prefix_append (pathNames start) names) with
    shorter | ⟨more, rfl⟩
  · exact prefix_dropLast shorter fun same => seen [] (List.nil_prefix) (by simpa using same)
  · exact absurd rfl (seen more ((List.prefix_append_right_inj _).1 part))

-- No entry is excluded itself, and none has an excluded path between its start and itself.
-- What an exclude matches further up does not keep an entry out: an entry is covered if the
-- directory above its start is, and from a straight start only then.
theorem plan_covered_iff (named : v.WellNamed) (planned : plan v src opts = .ok entries) :
    ∃ excludes, readExcludes opts.excludes = .ok excludes ∧ ∀ entry ∈ entries,
      isExcluded excludes entry.src = false ∧
      ∃ start names, Starts v src start ∧ entry.src = descend start names ∧
        (∀ front, front <+: names → Passes excludes (descend start front)) ∧
        (Covered excludes (parentOf start) → Covered excludes entry.src) ∧
        (IsStraight start →
          (Covered excludes entry.src ↔ Covered excludes (parentOf start))) := by
  obtain ⟨excludes, read, all⟩ := planned_of_plan named planned
  refine ⟨excludes, read, fun entry member => ?_⟩
  obtain ⟨inner, start, starts, _, source⟩ := all entry member
  obtain ⟨names, path, clean, passes⟩ := source.below.descends named
  rw [path] at inner ⊢
  exact ⟨(passes names List.prefix_rfl).resolve_left inner, start, names, starts, rfl, passes,
    Covered.descend clean, fun straight => straight.covered_descend clean passes⟩

def nestedFile : Volume :=
  .ofRoot (.dir [(bytesOf "a", .dir [(bytesOf "b", .file ⟨[], false⟩)]), (bytesOf "c", .file ⟨[], false⟩)])

theorem plan_covered_nestedFile : nestedFile.WellNamed ∧
    plan nestedFile "." ⟨"", ["a"]⟩ = .ok [⟨"c", "c", false⟩] ∧
    ∃ excludes, readExcludes ["a"] = .ok excludes ∧ ∀ entry ∈ [(⟨"c", "c", false⟩ : TransferEntry)],
      isExcluded excludes entry.src = false ∧
      ∃ start names, Starts nestedFile "." start ∧ entry.src = descend start names ∧
        (∀ front, front <+: names → Passes excludes (descend start front)) ∧
        (Covered excludes (parentOf start) → Covered excludes entry.src) ∧
        (IsStraight start →
          (Covered excludes entry.src ↔ Covered excludes (parentOf start))) := by
  have named : nestedFile.WellNamed := by decide
  have planned : plan nestedFile "." ⟨"", ["a"]⟩ = .ok [⟨"c", "c", false⟩] := rfl
  exact ⟨named, planned, plan_covered_iff named planned⟩

-- A recursive pattern matches what is in a directory apart from the directory, so it brings
-- in a file below a directory that is excluded.
theorem pattern_reaches_into_excluded : nestedFile.WellNamed ∧
    plan nestedFile "**/*" ⟨"", ["a"]⟩ = .ok [⟨"a/b", "a/b", false⟩, ⟨"c", "c", false⟩] ∧
      ∃ excludes, readExcludes ["a"] = .ok excludes ∧ Covered excludes "a/b" :=
  ⟨by decide, rfl, _, rfl, ["a"], by decide, by decide, by decide⟩

end ControlPlane.Transfer
