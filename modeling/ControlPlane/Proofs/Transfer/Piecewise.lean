import ControlPlane.Proofs.Transfer.Layout
import ControlPlane.Proofs.Transfer.Pruning
import ControlPlane.Proofs.Transfer.Standing
-- A pattern stands for its matches: its plan is made of the plans that these have as
-- sources of their own, each put into the destination.
namespace ControlPlane

namespace Glob

open Volume

def Sources (g : Glob) (v : Volume) : Prop :=
  ∀ place ∈ expand v g.dirsOnly g.components [],
    ∃ path, bytesOf path = matchPath place ∧ IsSource path

structure Usable (v : Volume) (path : String) : Prop where
  some : path ≠ ""
  literal : isWild path = false
  stays : StaysBelow path
  bare : path.toList.getLast? ≠ .some '/'
  there : ∃ node, v.statPath path = .ok node

variable {v : Volume} {glob : Glob} {src found path : String} {place : List Name}

theorem usable_of_source (free : v.LinkFree) (stands : Stands v place)
    (steps : ∀ name ∈ place, IsStep name) (spelled : bytesOf path = matchPath place)
    (some : path ≠ "") (source : IsSource path) : Usable v path := by
  have inner : trimDots place ≠ [] := by
    intro none
    rw [matchPath, none] at spelled
    exact some (Transfer.bytesOf_eq_nil_iff.1 spelled)
  have parts := trimDots_eq_segments spelled inner fun name member => (steps name member).plain
  have solid : "" ∉ segments path := by
    intro empty
    have member : [] ∈ trimDots place := by
      rw [parts]
      exact List.mem_map_of_mem empty
    exact (steps [] (mem_of_mem_trimDots member)).some rfl
  refine ⟨some, source.literal, ⟨head_ne_slash solid, source.level⟩, last_ne_slash solid, ?_⟩
  obtain ⟨reaches, there⟩ := stands.trimDots
  obtain ⟨kind, standing⟩ := Option.ne_none_iff_exists'.1 there
  obtain ⟨node, here, _⟩ := kindAt_eq_some.1 standing
  refine ⟨node, ?_⟩
  rw [statPath, pathSteps_match spelled inner steps]
  exact (stat_eq_ok free).2 ⟨reaches, here⟩

theorem usable_of_match (named : v.WellNamed) (free : v.LinkFree) (storing : Storing v)
    (stays : StaysBelow src) (read : Glob.read src = .ok glob) (sources : glob.Sources v)
    (member : found ∈ glob.matchesOf v) : Usable v found := by
  have some := Transfer.match_ne_empty member
  obtain ⟨place, expanded, text⟩ := List.mem_map.1 (List.mem_filter.1 member).1
  obtain ⟨path, spelled, source⟩ := sources place expanded
  have steps : ∀ name ∈ place, IsStep name :=
    fun name inside => isStep_added named storing (Transfer.added_of_expand stays read expanded name inside)
  have same := placeText_eq spelled source fun name inside => (steps name inside).plain
  rw [← text, same] at some ⊢
  cases stands_of_expand named free storing expanded with
  | inl nowhere =>
    rw [nowhere] at spelled
    exact absurd (Transfer.bytesOf_eq_nil_iff.1 spelled) some
  | inr stands => exact usable_of_source free stands steps spelled some source

end Glob

namespace Transfer

open Volume

def asDirectory (dest : String) : String := if dest = "" then "" else dest ++ "/"

variable {v : Volume} {excludes : List Pattern} {src dest path base : String}
  {found : List (String × Bool)} {opts : TransferOpts} {entries : List TransferEntry}

theorem segments_asDirectory (given : dest ≠ "") :
    segments (asDirectory dest) = segments dest ++ [""] := by
  rw [asDirectory, if_neg given, ← String.append_empty (s := dest ++ "/"), segments_append_slash]
  rfl

theorem asDirectory_empty : asDirectory "" = "" := if_pos rfl

theorem asDirectory_eq_empty : asDirectory dest = "" ↔ dest = "" := by
  by_cases none : dest = ""
  · simp [asDirectory, none]
  · simp [asDirectory, none]

theorem endsInSlash_asDirectory (given : dest ≠ "") : endsInSlash (asDirectory dest) = true := by
  simp [endsInSlash, asDirectory, given]

theorem staysBelow_asDirectory (given : dest ≠ "") (stays : StaysBelow dest) :
    StaysBelow (asDirectory dest) := by
  refine ⟨?_, ?_⟩
  · rw [asDirectory, if_neg given, head?_slash_of_append given]
    exact stays.1
  · rw [segments_asDirectory given]
    simpa using stays.2

theorem cleanJoin_asDirectory (given : dest ≠ "") (path : String) :
    cleanJoin (asDirectory dest) path = cleanJoin dest path := by
  rw [cleanJoin, cleanJoin, segments_asDirectory given, cleanNames, cleanNames, List.foldl_append,
    List.foldl_append, List.foldl_append]
  rfl

theorem destFor_asDirectory (path : String) :
    destFor (asDirectory dest) base path = destFor dest base path := by
  by_cases none : dest = ""
  · rw [none, asDirectory_empty]
  · rw [destFor, destFor, if_neg none, if_neg (mt asDirectory_eq_empty.1 none),
      cleanJoin_asDirectory none]

theorem entriesFor_asDirectory :
    entriesFor (asDirectory dest) base found = entriesFor dest base found := by
  simp only [entriesFor, destFor_asDirectory]

theorem fileDest_asDirectory :
    fileDest path (asDirectory dest) = destFor dest (parentOf path) path := by
  by_cases none : dest = ""
  · rw [none, asDirectory_empty, fileDest, destFor, if_pos rfl, if_pos rfl]
  · rw [fileDest, destFor, if_neg none, if_neg (mt asDirectory_eq_empty.1 none),
      if_pos (.inl (endsInSlash_asDirectory none)), cleanJoin_asDirectory none,
      cleanJoin_stripBase_parentOf]

theorem planPlain_match (usable : Glob.Usable v path) (inner : path ≠ ".") :
    planPlain v excludes path (asDirectory dest) = planMatch v excludes dest path := by
  obtain ⟨some, _, _, bare, node, here⟩ := usable
  have trimmed : trimSource path = path := by
    rw [trimSource, trimSlashes_of_last bare]
    exact if_neg some
  have whole : ¬ (endsInSlash path = true ∨ path = ".") := by simp [endsInSlash, bare, inner]
  unfold planPlain
  dsimp only
  rw [trimmed, here]
  dsimp only
  rw [if_neg whole]
  split
  · -- Without a destination the base does not count.
    rw [planDirectory, planMatch]
    congr 1
    funext found
    rw [entriesFor_asDirectory]
    by_cases none : dest = ""
    · simp only [none, entriesFor, destFor, if_pos]
    · rw [endsInSlash_asDirectory none, if_pos rfl]
  · rename_i file
    obtain ⟨found, walked, same⟩ := @planFile_walk v excludes path _ _ _ node here inner
      (Bool.eq_false_iff.2 file) fileDest_asDirectory
    rw [same, planMatch, walk, walked]
    rfl

theorem check_match (valid : opts.check src = .ok ()) (usable : Glob.Usable v path) :
    TransferOpts.check ⟨asDirectory opts.dest, opts.excludes⟩ path = .ok () := by
  unfold TransferOpts.check
  rw [if_neg usable.some, checkRelativePath_ok.2 usable.stays]
  show (if asDirectory opts.dest = "" then _ else _) = _
  split
  · rfl
  · rename_i given
    have some := mt asDirectory_eq_empty.2 given
    have stays := (TransferOpts.check_ok valid).2.2.resolve_left some
    exact checkRelativePath_ok.2 (staysBelow_asDirectory some stays)

theorem plan_match (valid : opts.check src = .ok ()) (read : readExcludes opts.excludes = .ok excludes)
    (usable : Glob.Usable v path) (inner : path ≠ ".") :
    plan v path ⟨asDirectory opts.dest, opts.excludes⟩ = planMatch v excludes opts.dest path := by
  unfold plan
  rw [check_match valid usable]
  dsimp only
  rw [read]
  dsimp only
  rw [if_neg (by simp [usable.literal]), planPlain_match usable inner]

-- A plan of a pattern whose matches are sources is made of their plans, one behind the other,
-- without what came before. No source goes to one destination twice.
theorem plan_of_matches (named : v.WellNamed) (free : v.LinkFree) (storing : Glob.Storing v)
    (wild : isWild src = true) (planned : plan v src opts = .ok entries) :
    (entries.map fun e => (e.src, e.dest)).Nodup ∧ ∃ glob, Glob.read src = .ok glob ∧
      (glob.Sources v → ∃ plans,
        (glob.matchesOf v).mapM
          (fun path => plan v path ⟨asDirectory opts.dest, opts.excludes⟩) = .ok plans ∧
        entries = withoutRepeats plans.flatten) := by
  obtain ⟨valid, excludes, readAll, ⟨_, made⟩ | ⟨plain, _⟩⟩ := plan_ok planned
  · obtain ⟨glob, plans, read, ran, rfl⟩ := planGlob_ok made
    refine ⟨nodup_withoutRepeats _, glob, read, ?_⟩
    intro sources
    refine ⟨plans, ?_, rfl⟩
    have stays := (TransferOpts.check_ok valid).2.1
    rw [← ran]
    apply mapM_congr
    intro path member
    have usable := Glob.usable_of_match named free storing stays read sources member
    exact plan_match valid readAll usable (match_ne_root member)
  · rw [plain] at wild
    cases wild

theorem linkFree_nestedFile : nestedFile.LinkFree := linkFree_of_descendants (by decide)

theorem storing_nestedFile : Glob.Storing nestedFile := Glob.storing_of_descendants (by decide)

def everything : Glob := ⟨[⟨[.recursive]⟩, ⟨[.star]⟩], false⟩

theorem sources_nestedFile : everything.Sources nestedFile := by
  have found : Glob.expand nestedFile everything.dirsOnly everything.components [] =
      [[bytesOf "a"], [bytesOf "a", bytesOf "b"], [bytesOf "c"]] := by decide +kernel
  intro place member
  rw [found] at member
  simp only [List.mem_cons, List.not_mem_nil, or_false] at member
  rcases member with rfl | rfl | rfl
  · exact ⟨"a", by decide, by decide, by decide, by decide⟩
  · exact ⟨"a/b", by decide, by decide, by decide, by decide⟩
  · exact ⟨"c", by decide, by decide, by decide, by decide⟩

theorem plan_of_matches_nestedFile : nestedFile.WellNamed ∧ nestedFile.LinkFree ∧
    Glob.Storing nestedFile ∧ isWild "**/*" = true ∧
    plan nestedFile "**/*" ⟨"out", ["c"]⟩ =
      .ok [⟨"a", "out/a", true⟩, ⟨"a/b", "out/a/b", false⟩, ⟨"a/b", "out/b", false⟩] ∧
    everything.Sources nestedFile ∧ ∃ plans,
      (everything.matchesOf nestedFile).mapM (fun path => plan nestedFile path ⟨"out/", ["c"]⟩) =
        .ok plans ∧
      [(⟨"a", "out/a", true⟩ : TransferEntry), ⟨"a/b", "out/a/b", false⟩, ⟨"a/b", "out/b", false⟩] =
        withoutRepeats plans.flatten := by
  have named : nestedFile.WellNamed := by decide
  have planned : plan nestedFile "**/*" ⟨"out", ["c"]⟩ =
      .ok [⟨"a", "out/a", true⟩, ⟨"a/b", "out/a/b", false⟩, ⟨"a/b", "out/b", false⟩] := rfl
  obtain ⟨_, glob, read, pieces⟩ :=
    plan_of_matches named linkFree_nestedFile storing_nestedFile rfl planned
  have known : Glob.read "**/*" = .ok everything := rfl
  rw [known] at read
  cases read
  exact ⟨named, linkFree_nestedFile, storing_nestedFile, rfl, planned, sources_nestedFile,
    pieces sources_nestedFile⟩

end Transfer

end ControlPlane
