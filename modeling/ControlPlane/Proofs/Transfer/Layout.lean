import ControlPlane.Proofs.Transfer.Destinations
import ControlPlane.Proofs.Transfer.Listing
-- The whole plan of a plain source: what is taken, in which order, and where it goes.
namespace ControlPlane.Transfer

open Volume

-- A source that stands for what is in a directory, and not for the directory.
def TakesContents (src : String) : Prop := endsInSlash src = true ∨ trimSource src = "."

instance (src : String) : Decidable (TakesContents src) := inferInstanceAs (Decidable (_ ∨ _))

-- A source that goes into its destination under its own name, and not in its place: into a
-- directory that is written as one, or a file into the root.
def GoesInside (v : Volume) (src dest : String) : Prop :=
  ¬ TakesContents src ∧ (endsInSlash dest = true ∨
    (pathNames dest = [] ∧ v.kindAt (placeFor (pathNames (trimSource src))) ≠ some .dir))

instance (v : Volume) (src dest : String) : Decidable (GoesInside v src dest) :=
  inferInstanceAs (Decidable (_ ∧ _))

def landing (v : Volume) (src dest : String) : List String :=
  if dest = "" then pathNames (trimSource src)
  else pathNames dest ++ if GoesInside v src dest then pathNames (lastName (trimSource src)) else []

-- The entry for what is taken at names below a source. Without a destination a path is kept
-- as it is spelled.
def entryAt (v : Volume) (src dest : String) (f : List String × Kind) : TransferEntry :=
  ⟨descend (trimSource src) f.1,
    if dest = "" then descend (trimSource src) f.1 else cleanText (landing v src dest ++ f.1),
    f.2 == .dir⟩

-- The entries of a plan from the list of what is taken. The destination root is no entry.
structure LaidOut (v : Volume) (excludes : List Pattern) (src dest : String)
    (list : List (List String × Kind)) (entries : List TransferEntry) : Prop where
  mem_iff : ∀ names kind, (names, kind) ∈ list ↔
    Taken v excludes (trimSource src) names kind ∧ (TakesContents src → names ≠ [])
  sorted : list.Pairwise fun a b => Before a.1 b.1
  entries_eq : entries = (list.map (entryAt v src dest)).filter (·.dest ≠ ".")

variable {v : Volume} {excludes : List Pattern} {src dest start base : String}
  {names parts : List String} {opts : TransferOpts} {entries : List TransferEntry} {list : List (List String × Kind)}

theorem cleanNames_level (level : ".." ∉ parts) :
    cleanNames parts = parts.filter fun s => s ≠ "" ∧ s ≠ "." := by
  have collected : ∀ front, parts.foldl settle front =
      front ++ parts.filter fun s => s ≠ "" ∧ s ≠ "." := by
    induction parts with
    | nil => simp
    | cons part rest ih =>
      rw [List.mem_cons, not_or] at level
      intro front
      rw [List.foldl_cons, ih level.2, settle]
      by_cases idle : part = "" ∨ part = "."
      · rw [if_pos idle, List.filter_cons_of_neg (by simpa [← not_or] using idle)]
      · rw [if_neg idle, if_neg (Ne.symm level.1),
          List.filter_cons_of_pos (by simpa [← not_or] using idle), ← List.append_cons]
  rw [cleanNames, collected, List.nil_append]

theorem pathNames_clean {path : String} (level : ".." ∉ segments path) :
    ∀ name ∈ pathNames path, IsCleanName name := by
  intro name member
  obtain ⟨some, single, plain⟩ := pathNames_solid name member
  refine ⟨some, single, ?_, plain⟩
  rintro rfl
  exact level (List.mem_filter.1 member).1

theorem cleanNames_join {one two : String} (left : ".." ∉ segments one)
    (right : ".." ∉ segments two) :
    cleanNames (segments one ++ segments two) = pathNames one ++ pathNames two := by
  have both : ".." ∉ segments one ++ segments two :=
    fun climbs => (List.mem_append.1 climbs).elim left right
  rw [cleanNames_level both, List.filter_append]
  rfl

theorem pathNames_empty : pathNames "" = [] := by decide

theorem lastName_mem (start : String) : lastName start ∈ segments start := by
  have some : segments start ≠ [] := by simp [segments, List.splitOn_ne_nil]
  rw [lastName, List.getLast?_eq_some_getLast some, Option.getD_some]
  exact List.getLast_mem some

theorem segments_lastName (start : String) : segments (lastName start) = [lastName start] :=
  segments_of_no_slash (no_slash_of_mem_segments (lastName_mem start))

theorem segments_eq_lastName (start : String) :
    segments start = (segments start).dropLast ++ [lastName start] := by
  have some : segments start ≠ [] := by simp [segments, List.splitOn_ne_nil]
  have last : lastName start = (segments start).getLast some := by
    rw [lastName, List.getLast?_eq_some_getLast some, Option.getD_some]
  rw [last, List.dropLast_append_getLast]

theorem dropWhile_plain {name : String} (plain : '/' ∉ name.toList) :
    String.ofList (name.toList.dropWhile (· == '/')) = name := by
  apply String.toList_injective
  rw [String.toList_ofList]
  cases chars : name.toList with
  | nil => rfl
  | cons c rest =>
    rw [chars, List.mem_cons, not_or] at plain
    exact List.dropWhile_cons_of_neg (by simpa using Ne.symm plain.1)

theorem stripBase_parentOf (start : String) : stripBase start (parentOf start) =
    if parentOf start = "." then start else lastName start := by
  split
  · rename_i root
    rw [stripBase, if_pos root]
  · rename_i inner
    have parent : parentOf start = cleanText (segments start).dropLast := rfl
    have some : (segments start).dropLast ≠ [] := by
      intro none
      rw [parent, none] at inner
      exact inner rfl
    have spelled : start = parentOf start ++ ("/" ++ lastName start) := by
      rw [parent, cleanText_of_ne_nil some, ← String.append_assoc, ← joinNames_concat some,
        ← segments_eq_lastName, joinNames_segments]
    have plain : '/' ∉ (lastName start).toList := no_slash_of_mem_segments (lastName_mem start)
    have stripped := @stripBase_append _ ("/" ++ lastName start) inner
    rwa [← spelled, String.toList_append, show "/".toList = ['/'] from rfl, List.singleton_append,
      List.dropWhile_cons_of_pos (by rfl), dropWhile_plain plain] at stripped

theorem segments_of_parent_root (root : parentOf start = ".") :
    segments start = [lastName start] ∨ segments start = [".", lastName start] := by
  have whole := segments_eq_lastName start
  rw [show parentOf start = cleanText (segments start).dropLast from rfl, cleanText] at root
  split at root
  · rename_i none
    rw [List.isEmpty_iff.1 none] at whole
    exact .inl whole
  · rw [joinNames_eq_dot root] at whole
    exact .inr whole

theorem pathNames_stripBase_parentOf (start : String) :
    pathNames (stripBase start (parentOf start)) = pathNames (lastName start) := by
  rw [stripBase_parentOf]
  split
  · rename_i root
    rw [pathNames, pathNames, segments_lastName]
    rcases segments_of_parent_root root with bare | dotted
    · rw [bare]
    · rw [dotted]
      rfl
  · rfl

theorem cleanJoin_stripBase_parentOf (dest start : String) :
    cleanJoin dest (stripBase start (parentOf start)) = cleanJoin dest (lastName start) := by
  rw [stripBase_parentOf]
  split
  · rename_i root
    rw [cleanJoin, cleanJoin, segments_lastName]
    rcases segments_of_parent_root root with bare | dotted
    · rw [bare]
    · rw [dotted, cleanNames, cleanNames, List.foldl_append, List.foldl_append]
      rfl
  · rfl

theorem level_lastName (level : ".." ∉ segments start) : ".." ∉ segments (lastName start) := by
  rw [segments_lastName, List.mem_singleton]
  intro climbs
  have last := lastName_mem start
  rw [← climbs] at last
  exact level last

theorem level_stripBase_parentOf (level : ".." ∉ segments start) :
    ".." ∉ segments (stripBase start (parentOf start)) := by
  rw [stripBase_parentOf]
  split
  · exact level
  · exact level_lastName level

theorem stripBase_self (start : String) :
    pathNames (stripBase start start) = [] ∧ ".." ∉ segments (stripBase start start) := by
  by_cases root : start = "."
  · rw [root]
    decide
  · have stripped := @stripBase_append start "" root
    rw [String.append_empty] at stripped
    rw [stripped]
    decide

theorem destFor_descend (given : dest ≠ "") (level : ".." ∉ segments dest)
    (isBase : IsBase start base) (left : ".." ∉ segments (stripBase start base))
    (clean : ∀ name ∈ names, IsCleanName name) : destFor dest base (descend start names) =
      cleanText (pathNames dest ++ pathNames (stripBase start base) ++ names) := by
  obtain ⟨front, all⟩ := cleanNames_stripBase (segments dest) isBase
  have fronts : cleanNames (segments dest ++ segments (stripBase start base)) = front ++ [] :=
    all [] (by simp)
  rw [cleanNames_join level left, List.append_nil] at fronts
  rw [destFor, if_neg given, cleanJoin, all names clean, fronts]

theorem destFor_entryAt (level : ".." ∉ segments (trimSource src)) (destLevel : ".." ∉ segments dest)
    (base_eq : base = if GoesInside v src dest then parentOf (trimSource src) else trimSource src)
    (clean : ∀ name ∈ names, IsCleanName name) (kind : Kind) :
    destFor dest base (descend (trimSource src) names) = (entryAt v src dest (names, kind)).dest := by
  unfold entryAt landing
  by_cases none : dest = ""
  · rw [destFor, if_pos none, if_pos none]
  · rw [if_neg none, if_neg none, base_eq]
    split
    · rw [destFor_descend none destLevel (isBase_parentOf _) (level_stripBase_parentOf level) clean,
        pathNames_stripBase_parentOf]
    · rw [destFor_descend none destLevel (isBase_self _) (stripBase_self _).2 clean,
        (stripBase_self _).1]

theorem entriesFor_surveyed (level : ".." ∉ segments (trimSource src))
    (destLevel : ".." ∉ segments dest)
    (base_eq : base = if GoesInside v src dest then parentOf (trimSource src) else trimSource src)
    (clean : ∀ f ∈ list, ∀ name ∈ f.1, IsCleanName name) :
    entriesFor dest base (surveyed (trimSource src) list) =
      (list.map (entryAt v src dest)).filter (·.dest ≠ ".") := by
  rw [entriesFor, surveyed, List.map_map]
  congr 1
  apply List.map_congr_left
  intro f member
  rw [Function.comp_apply, destFor_entryAt level destLevel base_eq (clean f member) f.2]
  rfl

theorem descend_eq_self (clean : ∀ name ∈ names, IsCleanName name) :
    descend start names = start ↔ names = [] := by
  constructor
  · intro same
    have parts : pathNames (descend start names) = _ := pathNames_descend clean
    rw [same] at parts
    exact List.self_eq_append_right.1 parts
  · rintro rfl
    rfl

theorem level_descend (level : ".." ∉ segments start) (clean : ∀ name ∈ names, IsCleanName name) :
    ".." ∉ segments (descend start names) := by
  induction names generalizing start with
  | nil => exact level
  | cons name names ih =>
    rw [List.forall_mem_cons] at clean
    exact ih (level_childPath level clean.1) clean.2

theorem mem_of_landing {name : String} (member : name ∈ landing v src dest) :
    name ∈ pathNames dest ∨ name ∈ pathNames (trimSource src) := by
  unfold landing at member
  split at member
  · exact .inr member
  · refine (List.mem_append.1 member).imp_right fun last => ?_
    split at last
    · rw [pathNames, segments_eq_lastName, List.filter_append]
      rw [pathNames, segments_lastName] at last
      exact List.mem_append_right _ last
    · cases last

theorem landing_clean (level : ".." ∉ segments (trimSource src)) (destLevel : ".." ∉ segments dest) :
    ∀ name ∈ landing v src dest, IsCleanName name :=
  fun name member => (mem_of_landing member).elim (pathNames_clean destLevel name)
    (pathNames_clean level name)

theorem Survey.clean (survey : Survey v excludes start list) :
    ∀ f ∈ list, ∀ name ∈ f.1, IsCleanName name :=
  fun f member => ((survey.mem_iff f.1 f.2).1 member).clean

theorem laidOut_contents (ordered : v.Ordered) (contents : TakesContents src) (level : ".." ∉ segments (trimSource src))
    (destLevel : ".." ∉ segments dest) (survey : Survey v excludes (trimSource src) list) :
    LaidOut v excludes src dest (list.filter (·.1 ≠ [])) (entriesFor dest (trimSource src)
      ((surveyed (trimSource src) list).filter (·.1 ≠ trimSource src))) := by
  refine ⟨fun names kind => ?_, (survey.sorted ordered).filter _, ?_⟩
  · rw [List.mem_filter, survey.mem_iff]
    simp [contents]
  · have inner : (surveyed (trimSource src) list).filter (·.1 ≠ trimSource src) =
        surveyed (trimSource src) (list.filter (·.1 ≠ [])) := by
      rw [surveyed, List.filter_map, surveyed]
      congr 1
      apply List.filter_congr
      intro f member
      simp [descend_eq_self (survey.clean f member)]
    rw [inner]
    refine entriesFor_surveyed level destLevel (if_neg fun inside => inside.1 contents).symm ?_
    exact fun f member => survey.clean f (List.mem_filter.1 member).1

theorem laidOut_directory (ordered : v.Ordered) (whole : ¬ TakesContents src) (level : ".." ∉ segments (trimSource src))
    (destLevel : ".." ∉ segments dest) (survey : Survey v excludes (trimSource src) list)
    (dir : v.kindAt (placeFor (pathNames (trimSource src))) = some .dir) :
    LaidOut v excludes src dest list (entriesFor dest
      (if endsInSlash dest then parentOf (trimSource src) else trimSource src)
      (surveyed (trimSource src) list)) := by
  have inside : GoesInside v src dest ↔ endsInSlash dest = true := by simp [GoesInside, whole, dir]
  refine ⟨fun names kind => ?_, survey.sorted ordered, ?_⟩
  · rw [survey.mem_iff]
    simp [whole]
  · refine entriesFor_surveyed level destLevel ?_ survey.clean
    simp only [inside]

theorem fileDest_eq (given : dest ≠ "") (level : ".." ∉ segments start)
    (destLevel : ".." ∉ segments dest) : fileDest start dest = cleanText (pathNames dest ++
      if endsInSlash dest = true ∨ pathNames dest = [] then pathNames (lastName start) else []) := by
  have alone : cleanJoin dest "" = cleanText (pathNames dest) := by
    rw [cleanJoin, cleanNames_join destLevel (by decide), pathNames_empty, List.append_nil]
  unfold fileDest
  rw [if_neg given, alone]
  simp only [cleanText_eq_dot (pathNames_clean destLevel)]
  split
  · rw [cleanJoin, cleanNames_join destLevel (level_lastName level)]
  · rw [List.append_nil]

theorem laidOut_file {leaf : Kind} (whole : ¬ TakesContents src)
    (level : ".." ∉ segments (trimSource src)) (destLevel : ".." ∉ segments dest)
    (here : v.kindAt (placeFor (pathNames (trimSource src))) = some leaf) (noDir : leaf ≠ .dir) :
    ∃ list, LaidOut v excludes src dest list (planFile excludes (trimSource src) dest) := by
  have inside : GoesInside v src dest ↔ endsInSlash dest = true ∨ pathNames dest = [] := by
    simp [GoesInside, whole, here, noDir]
  have entry : entryAt v src dest ([], leaf) =
      ⟨trimSource src, fileDest (trimSource src) dest, false⟩ := by
    unfold entryAt landing
    rw [beq_false_of_ne noDir, List.append_nil]
    by_cases none : dest = ""
    · rw [if_pos none, fileDest, if_pos none]
      rfl
    · rw [if_neg none, if_neg none, fileDest_eq none level destLevel]
      simp only [inside]
      rfl
  unfold planFile
  split
  · rename_i out
    refine ⟨[], fun names kind => ?_, .nil, rfl⟩
    refine iff_of_false List.not_mem_nil fun taken => ?_
    have passes := taken.1.start_passes.resolve_left fun root => whole (.inr root)
    rw [out] at passes
    cases passes
  · rename_i passed
    have survey := survey_leaf (.inr (Bool.eq_false_iff.2 passed)) here noDir
    refine ⟨[([], leaf)], fun names kind => ?_, List.pairwise_singleton .., ?_⟩
    · rw [survey.mem_iff]
      simp [whole]
    · rw [List.map_singleton, entry]

theorem exists_laidOut (tree : PlainTree v)
    (level : ".." ∉ segments (trimSource src)) (destLevel : ".." ∉ segments dest)
    (planned : planPlain v excludes src dest = .ok entries) :
    ∃ list, LaidOut v excludes src dest list entries := by
  unfold planPlain at planned
  dsimp only at planned
  split at planned
  · cases planned
  · cases planned
  · rename_i node here
    have there := kindAt_of_node (there_of_statPath tree.linkless level here).1
    split at planned
    · rename_i contents
      obtain ⟨found, walked, rfl⟩ := walkFrom_of_map planned
      obtain ⟨list, survey, rfl⟩ := survey_of_walkFrom tree.linkless tree.spelled level walked
      exact ⟨_, laidOut_contents tree.ordered contents level destLevel survey⟩
    · rename_i whole
      split at planned
      · rename_i isDir
        obtain ⟨found, walked, rfl⟩ := walkFrom_of_map planned
        obtain ⟨list, survey, rfl⟩ := survey_of_walkFrom tree.linkless tree.spelled level walked
        have dir : node.kind = .dir := by rwa [← kind_beq_dir, beq_iff_eq] at isDir
        exact ⟨_, laidOut_directory tree.ordered whole level destLevel survey (dir ▸ there)⟩
      · rename_i plain
        cases planned
        refine laidOut_file whole level destLevel there fun dir => plain ?_
        rw [← kind_beq_dir, dir]
        rfl

theorem pathPlace_entryAt (level : ".." ∉ segments (trimSource src)) (destLevel : ".." ∉ segments dest)
    {f : List String × Kind} (clean : ∀ name ∈ f.1, IsCleanName name) :
    pathPlace (entryAt v src dest f).dest = placeFor (landing v src dest ++ f.1) := by
  unfold entryAt landing
  by_cases none : dest = ""
  · rw [if_pos none, if_pos none, pathPlace_level (level_descend level clean),
      pathNames_descend clean]
  · have all : ∀ name ∈ landing v src dest ++ f.1, IsCleanName name := by
      intro name member
      refine (List.mem_append.1 member).elim (fun front => ?_) (clean name)
      exact landing_clean level destLevel name front
    rw [landing, if_neg none] at all
    rw [if_neg none, if_neg none, pathPlace_level (level_cleanText all), pathNames_of_clean all]

theorem plan_levels (literal : isWild src = false) (planned : plan v src opts = .ok entries) :
    ".." ∉ segments (trimSource src) ∧ ".." ∉ segments opts.dest ∧
      ∃ excludes, readExcludes opts.excludes = .ok excludes ∧
        planPlain v excludes src opts.dest = .ok entries := by
  obtain ⟨valid, excludes, read, ⟨wild, _⟩ | ⟨_, made⟩⟩ := plan_ok planned
  · rw [literal] at wild
    cases wild
  · obtain ⟨_, stays, given⟩ := TransferOpts.check_ok valid
    refine ⟨(trimSource_stays stays).2.2, ?_, excludes, read, made⟩
    rcases given with none | given
    · rw [none]
      decide
    · exact given.2

theorem LaidOut.clean (laid : LaidOut v excludes src dest list entries) {f : List String × Kind}
    (member : f ∈ list) : ∀ name ∈ f.1, IsCleanName name :=
  ((laid.mem_iff f.1 f.2).1 member).1.clean

theorem LaidOut.apart (laid : LaidOut v excludes src dest list entries)
    (level : ".." ∉ segments (trimSource src)) (destLevel : ".." ∉ segments dest) :
    (entries.map (·.src)).Nodup ∧ (entries.map fun e => pathPlace e.dest).Nodup := by
  have distinct : list.Pairwise fun a b => a.1 ≠ b.1 := laid.sorted.imp fun before same => by
    rw [same] at before
    exact List.lt_irrefl _ before
  -- What tells the names below the source tells them in what a filter leaves as well.
  have inject {β : Type} (part : TransferEntry → β) (tells : ∀ a ∈ list, ∀ b ∈ list,
      part (entryAt v src dest a) = part (entryAt v src dest b) → a.1 = b.1) :
      (entries.map part).Nodup := by
    rw [laid.entries_eq, List.Nodup, List.pairwise_map]
    apply List.Pairwise.filter
    rw [List.pairwise_map]
    exact distinct.imp_of_mem fun one two differ same => differ (tells _ one _ two same)
  constructor
  · apply inject
    intro a one b two same
    have names := congrArg pathNames same
    unfold entryAt at names
    rw [pathNames_descend (laid.clean one), pathNames_descend (laid.clean two)] at names
    exact List.append_cancel_left names
  · apply inject
    intro a one b two same
    rw [pathPlace_entryAt level destLevel (laid.clean one),
      pathPlace_entryAt level destLevel (laid.clean two)] at same
    exact List.append_cancel_left (placeFor_injective same)

-- A plan of a plain source has an entry for everything that stands at the source or below
-- it, down to where an exclude matches. What is above comes before what is below it, and the
-- entries of a directory come in the order of their names. Each goes to a place of its own.
theorem plan_laid_out (tree : PlainTree v) (literal : isWild src = false)
    (planned : plan v src opts = .ok entries) :
    ∃ excludes list, readExcludes opts.excludes = .ok excludes ∧
      LaidOut v excludes src opts.dest list entries ∧ (entries.map (·.src)).Nodup ∧
      (entries.map (·.dest)).Nodup ∧ (entries.map fun e => pathPlace e.dest).Nodup := by
  obtain ⟨level, destLevel, excludes, read, made⟩ := plan_levels literal planned
  obtain ⟨list, laid⟩ := exists_laidOut tree level destLevel made
  obtain ⟨sources, places⟩ := laid.apart level destLevel
  refine ⟨excludes, list, read, laid, sources, ?_, places⟩
  apply List.Nodup.of_map pathPlace
  rwa [List.map_map]

theorem plainTree_nestedFile : PlainTree nestedFile :=
  ⟨by decide, fun _ => linkFree_of_descendants (by decide) _, spelled_of_descendants (by decide)⟩

theorem plan_laid_out_nestedFile : PlainTree nestedFile ∧ isWild "a" = false ∧
    plan nestedFile "a" ⟨"out/", ["c"]⟩ =
      .ok [⟨"a", "out/a", true⟩, ⟨"a/b", "out/a/b", false⟩] ∧
    ∃ excludes list, readExcludes ["c"] = .ok excludes ∧
      LaidOut nestedFile excludes "a" "out/" list
        [⟨"a", "out/a", true⟩, ⟨"a/b", "out/a/b", false⟩] ∧
      ["a", "a/b"].Nodup ∧ ["out/a", "out/a/b"].Nodup ∧
      [pathPlace "out/a", pathPlace "out/a/b"].Nodup := by
  have planned : plan nestedFile "a" ⟨"out/", ["c"]⟩ =
      .ok [⟨"a", "out/a", true⟩, ⟨"a/b", "out/a/b", false⟩] := by decide +kernel
  exact ⟨plainTree_nestedFile, rfl, planned, plan_laid_out plainTree_nestedFile rfl planned⟩

end ControlPlane.Transfer
