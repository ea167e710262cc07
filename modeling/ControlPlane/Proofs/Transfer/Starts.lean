import ControlPlane.Proofs.Transfer.Roots
-- Where the walks of a plan start, and what its entries are by that: neither the root nor
-- without a destination.
namespace ControlPlane.Transfer

variable {v : Volume} {excludes : List Pattern} {start path src name : String}
  {names : List String} {opts : TransferOpts} {entries : List TransferEntry}

theorem childPath_ne_root (clean : IsCleanName name) : childPath path name ≠ "." := by
  unfold childPath
  split
  · exact clean.2.1
  · exact append_slash_ne_dot path name

theorem descend_ne_root (clean : ∀ name ∈ names, IsCleanName name) (inner : start ≠ ".") :
    descend start names ≠ "." := by
  rcases List.eq_nil_or_concat names with rfl | ⟨front, name, rfl⟩
  · exact inner
  · rw [List.concat_eq_append] at clean ⊢
    rw [descend_concat]
    exact childPath_ne_root (clean name (by simp))

def Starts (v : Volume) (src start : String) : Prop :=
  (isWild src = false ∧ start = trimSource src) ∨
    (isWild src = true ∧ ∃ glob, Glob.read src = .ok glob ∧ start ∈ glob.matchesOf v)

theorem plainSlashes_eq_dot {text : String} (root : Glob.plainSlashes text = ".") : text = "." := by
  have chars := congrArg String.toList root
  rw [Glob.plainSlashes, String.toList_ofList] at chars
  obtain ⟨c, single, kept⟩ : ∃ c, text.toList = [c] ∧ (if c = '\\' then '/' else c) = '.' := by
    match h : text.toList with
    | [] => simp [h] at chars
    | [c] => exact ⟨c, rfl, by simpa [h] using chars⟩
    | _ :: _ :: _ => simp [h] at chars
  split at kept
  · cases kept
  · exact String.toList_injective (by rw [single, kept]; rfl)

theorem match_ne_root {glob : Glob} {found : String} (member : found ∈ glob.matchesOf v) :
    found ≠ "." := by
  obtain ⟨place, _, rfl⟩ := List.mem_map.1 (List.mem_filter.1 member).1
  intro root
  have names : (Glob.trimDots place).map lossyTextOf = ["."] :=
    joinNames_eq_dot (plainSlashes_eq_dot root)
  obtain ⟨name, single, text⟩ := List.map_eq_singleton_iff.1 names
  have some : Glob.trimDots place ≠ [] := by simp [single]
  obtain ⟨front, last, ends, other⟩ := Glob.trimDots_ends some
  have same : name = last := by simpa [single] using congrArg List.getLast? ends
  exact other (same ▸ (bytesOf_of_lossyTextOf (by decide) text).symm)

theorem Planned.src_ne_root {entry : TransferEntry} {dest : String} (named : v.WellNamed)
    (inner : start ≠ ".") (planned : Planned v excludes start dest entry) : entry.src ≠ "." := by
  obtain ⟨names, path, clean, _⟩ := planned.below.descends named
  rw [path]
  exact descend_ne_root clean inner

theorem Sourced.src_ne_root {dest : String} (named : v.WellNamed)
    (sourced : Sourced v excludes start dest entries) : ∀ entry ∈ entries, entry.src ≠ "." := by
  intro entry member
  have planned := sourced.planned entry member
  cases sourced with
  | contents =>
    by_cases root : start = "."
    · have other := (List.mem_filter.1 (mem_entriesFor member).1).2
      simpa [root] using other
    · exact planned.src_ne_root named root
  | directory inner => exact planned.src_ne_root named inner
  | file inner => exact planned.src_ne_root named inner

theorem planned_of_plan (named : v.WellNamed) (planned : plan v src opts = .ok entries) :
    ∃ excludes, readExcludes opts.excludes = .ok excludes ∧ ∀ entry ∈ entries,
      entry.src ≠ "." ∧ ∃ start, Starts v src start ∧ start ≠ "" ∧
        Planned v excludes start opts.dest entry := by
  obtain ⟨valid, excludes, read, ⟨wild, made⟩ | ⟨plain, made⟩⟩ := plan_ok planned
  · refine ⟨excludes, read, fun entry member => ?_⟩
    obtain ⟨glob, plans, globRead, ran, rfl⟩ := planGlob_ok made
    obtain ⟨list, present, inside⟩ := List.mem_flatten.1 (mem_of_mem_withoutRepeats member)
    obtain ⟨found, matched, one⟩ := exists_of_mem_mapM ran present
    have source := planned_of_planMatch one entry inside
    exact ⟨source.src_ne_root named (match_ne_root matched), found,
      .inr ⟨wild, glob, globRead, matched⟩, match_ne_empty matched, source⟩
  · refine ⟨excludes, read, fun entry member => ?_⟩
    have sourced := planPlain_ok made
    exact ⟨sourced.src_ne_root named entry member, _, .inl ⟨plain, rfl⟩,
      (trimSource_stays (TransferOpts.check_ok valid).2.1).1, sourced.planned entry member⟩

theorem cleanText_ne_empty (clean : ∀ name ∈ names, IsCleanName name) : cleanText names ≠ "" := by
  intro none
  have split := segments_cleanText fun name member => (clean name member).2.2.2
  rw [none, show segments "" = [""] from rfl] at split
  split_ifs at split
  · exact absurd split (by decide)
  · exact (clean "" (by simp [← split])).1 rfl

theorem Planned.dest_ne_empty {entry : TransferEntry} {dest : String} (named : v.WellNamed)
    (some : start ≠ "") (planned : Planned v excludes start dest entry) : entry.dest ≠ "" := by
  by_cases none : dest = ""
  · rw [planned.kept none]
    exact (planned.below.staysBelow named some).1
  · obtain ⟨a, b, same⟩ := planned.cleaned none
    rw [same]
    exact cleanText_ne_empty (cleanNames_segments_clean a b)

theorem dest_ne_empty_of_plan (named : v.WellNamed) (planned : plan v src opts = .ok entries) :
    ∀ entry ∈ entries, entry.dest ≠ "" := by
  intro entry member
  obtain ⟨_, _, all⟩ := planned_of_plan named planned
  obtain ⟨_, _, _, some, source⟩ := all entry member
  exact source.dest_ne_empty named some

end ControlPlane.Transfer
