import ControlPlane.Proofs.Text.Blank
import ControlPlane.Proofs.Text.Segments
import ControlPlane.Proofs.Transfer.Entries
import ControlPlane.Proofs.Transfer.Matches
-- Which plans stay inside their roots.
namespace ControlPlane

def StaysBelow (path : String) : Prop := path.toList.head? ≠ some '/' ∧ ".." ∉ segments path

instance (path : String) : Decidable (StaysBelow path) := inferInstanceAs (Decidable (_ ∧ _))

theorem checkRelativePath_ok {path : String} :
    checkRelativePath path = .ok () ↔ StaysBelow path := by
  unfold checkRelativePath StaysBelow
  split
  · rename_i absolute
    simp [absolute]
  · rename_i relative
    simp [relative]

theorem TransferOpts.check_ok {opts : TransferOpts} {src : String}
    (valid : opts.check src = .ok ()) :
    src ≠ "" ∧ StaysBelow src ∧ (opts.dest = "" ∨ StaysBelow opts.dest) := by
  unfold TransferOpts.check at valid
  split at valid
  · cases valid
  · rename_i some
    cases source : checkRelativePath src with
    | error e => simp [source, bind, Except.bind] at valid
    | ok =>
      simp only [source, bind, Except.bind] at valid
      refine ⟨some, checkRelativePath_ok.1 source, ?_⟩
      split at valid
      · exact .inl ‹_›
      · exact .inr (checkRelativePath_ok.1 valid)

theorem head?_slash_of_append {a b : String} (some : a ≠ "") :
    (a ++ b).toList.head? = a.toList.head? := by
  rw [String.toList_append]
  cases chars : a.toList with
  | nil => exact absurd (String.toList_eq_nil_iff.1 chars) some
  | cons c rest => rfl

theorem staysBelow_child {path name : String} (some : path ≠ "") (plain : '/' ∉ name.toList)
    (stays : name ≠ "..") : StaysBelow (path ++ "/" ++ name) ↔ StaysBelow path := by
  unfold StaysBelow
  rw [String.append_assoc, head?_slash_of_append some, ← String.append_assoc,
    segments_append_slash, segments_of_no_slash plain]
  simp [stays.symm]

theorem staysBelow_name {name : String} (plain : '/' ∉ name.toList) (stays : name ≠ "..") :
    StaysBelow name := by
  refine ⟨fun absolute => plain ?_, ?_⟩
  · exact List.mem_of_mem_head? (by simp [absolute])
  · rw [segments_of_no_slash plain]
    simpa using stays.symm

theorem staysBelow_joinNames {names : List String}
    (clean : ∀ name ∈ names, name ≠ "" ∧ name ≠ ".." ∧ '/' ∉ name.toList) :
    StaysBelow (joinNames names) := by
  by_cases none : names = []
  · rw [none]
    decide
  · have parts := segments_joinNames none fun name member => (clean name member).2.2
    refine ⟨head_ne_slash ?_, ?_⟩
    · rw [parts]
      exact fun empty => (clean "" empty).1 rfl
    · rw [parts]
      exact fun climbs => (clean ".." climbs).2.1 rfl

theorem staysBelow_cleanJoin (a b : String) : StaysBelow (cleanJoin a b) := by
  have clean := cleanNames_segments_clean a b
  unfold cleanJoin cleanText
  split
  · decide
  · apply staysBelow_joinNames
    intro name member
    obtain ⟨some, _, stays, plain⟩ := clean name member
    exact ⟨some, stays, plain⟩

theorem segments_of_trimSlashes {src segment : String}
    (member : segment ∈ segments (trimSlashes src)) : segment ∈ segments src := by
  obtain ⟨tail, whole, slashes⟩ := exists_dropTrailing (· == '/') src.toList
  unfold trimSlashes at member
  unfold segments at member ⊢
  rw [whole]
  rw [String.toList_ofList] at member
  cases tail with
  | nil => simpa using member
  | cons c rest =>
    have slash : c = '/' := by simpa using slashes c (by simp)
    rw [slash, List.splitOn_append_cons_self, List.map_append]
    exact List.mem_append_left _ member

theorem trimSource_stays {src : String} (stays : StaysBelow src) :
    Transfer.trimSource src ≠ "" ∧ StaysBelow (Transfer.trimSource src) := by
  unfold Transfer.trimSource
  dsimp only
  split
  · exact ⟨by decide, by decide⟩
  · rename_i some
    refine ⟨some, ?_, fun climbs => stays.2 (segments_of_trimSlashes climbs)⟩
    intro absolute
    obtain ⟨tail, whole, _⟩ := exists_dropTrailing (· == '/') src.toList
    refine stays.1 ?_
    rw [whole]
    rw [trimSlashes, String.toList_ofList] at absolute
    rw [List.head?_append, absolute]
    rfl

namespace Transfer

variable {v : Volume} {start path src : String} {opts : TransferOpts}
  {entries : List TransferEntry} {excludes : List Pattern}

theorem Below.staysBelow (named : v.WellNamed) (some : start ≠ "")
    (below : Below v excludes start path) :
    path ≠ "" ∧ (StaysBelow path ↔ StaysBelow start) := by
  induction below with
  | here => exact ⟨some, .rfl⟩
  | entry above dir member _ ih =>
    obtain ⟨solid, _, stays, plain⟩ := lossyTextOf_clean (v.proper_of_statPath named dir member)
    unfold childPath
    split
    · rename_i root
      refine ⟨solid, ?_⟩
      rw [← ih.2, root]
      exact ⟨fun _ => by decide, fun _ => staysBelow_name plain stays⟩
    · refine ⟨by simp, ?_⟩
      rw [← ih.2]
      exact staysBelow_child ih.1 plain stays

theorem Planned.src_stays {entry : TransferEntry} {dest : String} (named : v.WellNamed)
    (some : start ≠ "") (planned : Planned v excludes start dest entry) :
    StaysBelow entry.src ↔ StaysBelow start := (planned.below.staysBelow named some).2

theorem Planned.dest_stays {entry : TransferEntry} {dest : String}
    (planned : Planned v excludes start dest entry) (stays : dest ≠ "" ∨ StaysBelow entry.src) :
    StaysBelow entry.dest := by
  by_cases none : dest = ""
  · rw [planned.kept none]
    exact stays.resolve_left fun some => some none
  · obtain ⟨a, b, same⟩ := planned.cleaned none
    rw [same]
    exact staysBelow_cleanJoin a b

theorem match_ne_empty {glob : Glob} {found : String} (member : found ∈ glob.matchesOf v) :
    found ≠ "" := by
  have kept := (List.mem_filter.1 member).2
  simpa using kept

theorem placeText_stays {place : List Name}
    (names : ∀ name ∈ place, name = dot ∨ (isProperName name = true ∧ 92 ∉ name)) :
    StaysBelow (Glob.placeText place) := by
  have plain : ∀ name ∈ place, 92 ∉ name := by
    intro name member
    cases names name member with
    | inl single =>
      rw [single]
      decide
    | inr proper => exact proper.2
  rw [Glob.placeText_of_plain plain]
  apply staysBelow_joinNames
  intro text member
  obtain ⟨name, present, rfl⟩ := List.mem_map.1 member
  cases names name (Glob.mem_of_mem_trimDots present) with
  | inl single =>
    rw [single]
    decide
  | inr proper =>
    obtain ⟨some, _, stays, slash⟩ := lossyTextOf_clean proper.1
    exact ⟨some, stays, slash⟩

-- A plan that stays inside both roots.
def Contained (entries : List TransferEntry) : Prop :=
  ∀ entry ∈ entries, StaysBelow entry.src ∧ StaysBelow entry.dest

instance (entries : List TransferEntry) : Decidable (Contained entries) :=
  inferInstanceAs (Decidable (∀ entry ∈ entries, _))

-- A match of a pattern that leads above the root and is not left out: the excludes keep
-- something of it to be copied.
def Climbs (v : Volume) (src : String) (opts : TransferOpts) (found : String) : Prop :=
  isWild src = true ∧ ¬ StaysBelow found ∧ ∃ glob excludes,
    Glob.read src = .ok glob ∧ readExcludes opts.excludes = .ok excludes ∧
      found ∈ glob.matchesOf v ∧ planMatch v excludes opts.dest found ≠ .ok []

theorem dest_stays_of_plan (planned : plan v src opts = .ok entries) (some : opts.dest ≠ "") :
    ∀ entry ∈ entries, StaysBelow entry.dest := by
  obtain ⟨_, excludes, _, ⟨_, wild⟩ | ⟨_, plain⟩⟩ := plan_ok planned
  · obtain ⟨glob, plans, _, ran, rfl⟩ := planGlob_ok wild
    intro entry member
    obtain ⟨list, present, inside⟩ := List.mem_flatten.1 (mem_of_mem_withoutRepeats member)
    obtain ⟨found, _, one⟩ := exists_of_mem_mapM ran present
    exact (planned_of_planMatch one entry inside).dest_stays (.inl some)
  · exact fun entry member => (planned_of_planPlain plain entry member).dest_stays (.inl some)

theorem stays_of_plain (named : v.WellNamed) (planned : plan v src opts = .ok entries)
    (plain : isWild src = false) :
    ∀ entry ∈ entries, StaysBelow entry.src ∧ StaysBelow entry.dest := by
  obtain ⟨valid, excludes, _, ⟨wild, _⟩ | ⟨_, made⟩⟩ := plan_ok planned
  · rw [plain] at wild
    cases wild
  · intro entry member
    have one := planned_of_planPlain made entry member
    obtain ⟨some, start⟩ := trimSource_stays (TransferOpts.check_ok valid).2.1
    have below := (one.src_stays named some).2 start
    exact ⟨below, one.dest_stays (.inr below)⟩

theorem contained_of_plan (named : v.WellNamed) (planned : plan v src opts = .ok entries)
    (stays : isWild src = true → Contained entries) : Contained entries := by
  cases wild : isWild src with
  | true => exact stays wild
  | false => exact stays_of_plain named planned wild

theorem stays_iff_of_wild (named : v.WellNamed) (planned : plan v src opts = .ok entries)
    (wild : isWild src = true) :
    (∀ entry ∈ entries, StaysBelow entry.src ∧ StaysBelow entry.dest) ↔
      ∀ found, ¬ Climbs v src opts found := by
  obtain ⟨valid, excludes, read, ⟨_, made⟩ | ⟨plain, _⟩⟩ := plan_ok planned
  · obtain ⟨glob, plans, globRead, ran, rfl⟩ := planGlob_ok made
    constructor
    · rintro stays found ⟨_, climbs, glob', excludes', globRead', read', matched, some⟩
      cases globRead.symm.trans globRead'
      cases read.symm.trans read'
      obtain ⟨list, present, one⟩ := mem_mapM_of_mem ran matched
      have nonempty : list ≠ [] := fun none => some (by rw [one, none])
      obtain ⟨entry, rest, same⟩ := List.exists_cons_of_ne_nil nonempty
      have inside : entry ∈ list := by simp [same]
      obtain ⟨first, kept, src_eq, _⟩ := exists_of_mem_withoutRepeats
        (List.mem_flatten.2 ⟨list, present, inside⟩)
      have above := planned_of_planMatch one entry inside
      refine climbs ((above.src_stays named (match_ne_empty matched)).1 ?_)
      rw [← src_eq]
      exact (stays first kept).1
    · intro none entry member
      obtain ⟨list, present, inside⟩ := List.mem_flatten.1 (mem_of_mem_withoutRepeats member)
      obtain ⟨found, matched, one⟩ := exists_of_mem_mapM ran present
      have source := planned_of_planMatch one entry inside
      have start : StaysBelow found := by
        by_contra climbs
        refine none found ⟨wild, climbs, glob, excludes, globRead, read, matched, ?_⟩
        rw [one]
        rintro empty
        cases Except.ok.inj empty
        cases inside
      have below := (source.src_stays named (match_ne_empty matched)).2 start
      exact ⟨below, source.dest_stays (.inr below)⟩
  · rw [plain] at wild
    cases wild

theorem added_of_expand {glob : Glob} {place : List Name} (stays : StaysBelow src)
    (read : Glob.read src = .ok glob)
    (expanded : place ∈ Glob.expand v glob.dirsOnly glob.components []) :
    ∀ name ∈ place, Glob.Added v glob.components name := by
  have noUp : ∀ p ∈ glob.components, p.literal? ≠ some "..".toList :=
    fun p present up => stays.2 (Glob.literal_component read present up)
  obtain ⟨added, whole, names⟩ := Glob.expand_leads noUp expanded
  rw [List.nil_append] at whole
  rwa [whole]

-- A match leads above the root only through a component that starts with a dot and matches
-- two of them, or through a backslash in a name, which is read as a slash.
theorem climbing_match {glob : Glob} {found : String} (named : v.WellNamed)
    (stays : StaysBelow src) (read : Glob.read src = .ok glob)
    (member : found ∈ glob.matchesOf v) (climbs : ¬ StaysBelow found) :
    (∃ p ∈ glob.components, p.startsWithDot = true ∧ p.isMatch ".." = true) ∨
      ∃ name, Glob.Held v name ∧ 92 ∈ name := by
  by_contra neither
  rw [not_or] at neither
  obtain ⟨noUp, noBack⟩ := neither
  obtain ⟨place, expanded, rfl⟩ := List.mem_map.1 (List.mem_filter.1 member).1
  refine climbs (placeText_stays fun name present => ?_)
  cases added_of_expand stays read expanded name present with
  | dot => exact .inl rfl
  | up here begins matched => exact absurd ⟨_, here, begins, matched⟩ noUp
  | held held => exact .inr ⟨held.proper named, fun back => noBack ⟨_, held, back⟩⟩

-- A plan stays inside both roots unless its source is a pattern with a match that climbs,
-- and a destination that is given is never left. What climbs got there by a dot at the
-- front of a component, or by a backslash in a name.
theorem plan_stays_iff (named : v.WellNamed) (planned : plan v src opts = .ok entries) :
    ((∀ entry ∈ entries, StaysBelow entry.src ∧ StaysBelow entry.dest) ↔
      ∀ found, ¬ Climbs v src opts found) ∧
    (opts.dest ≠ "" → ∀ entry ∈ entries, StaysBelow entry.dest) ∧
    ∀ found, Climbs v src opts found →
      (∃ glob, Glob.read src = .ok glob ∧
        ∃ p ∈ glob.components, p.startsWithDot = true ∧ p.isMatch ".." = true) ∨
      ∃ name, Glob.Held v name ∧ 92 ∈ name := by
  refine ⟨?_, dest_stays_of_plan planned, ?_⟩
  · cases wild : isWild src with
    | true => exact stays_iff_of_wild named planned wild
    | false =>
      refine iff_of_true (stays_of_plain named planned wild) fun found climbs => ?_
      rw [climbs.1] at wild
      cases wild
  · rintro found ⟨_, climbs, glob, _, read, _, matched, _⟩
    have stays := (TransferOpts.check_ok (plan_ok planned).1).2.1
    rcases climbing_match named stays read matched climbs with up | back
    · exact .inl ⟨glob, read, up⟩
    · exact .inr back

def hiddenFile : Volume := .ofRoot (.dir [(bytesOf ".a", .file ⟨[], false⟩)])

theorem plan_stays_hiddenFile : hiddenFile.WellNamed ∧
    plan hiddenFile "*" ⟨"out", []⟩ = .ok [⟨".a", "out/.a", false⟩] ∧
      ((∀ entry ∈ [(⟨".a", "out/.a", false⟩ : TransferEntry)],
          StaysBelow entry.src ∧ StaysBelow entry.dest) ↔
        ∀ found, ¬ Climbs hiddenFile "*" ⟨"out", []⟩ found) :=
  ⟨by decide, rfl, (plan_stays_iff (by decide) rfl).1⟩

-- The usual pattern for hidden files matches the directory above the root, and with it
-- everything there.
theorem hidden_pattern_climbs : hiddenFile.WellNamed ∧
    plan hiddenFile ".*" ⟨"", []⟩ =
      .ok [⟨"..", "..", true⟩, ⟨"../root", "../root", true⟩,
        ⟨"../root/.a", "../root/.a", false⟩, ⟨".a", ".a", false⟩] ∧
      ¬ StaysBelow ".." := ⟨by decide, rfl, by decide⟩

end Transfer

end ControlPlane
