import ControlPlane.Proofs.Transfer.Frame
import ControlPlane.Proofs.Transfer.Layout
-- A plain transfer into an empty volume: what the source holds is seen grafted where the
-- plan lands, every entry fits there, and so nothing is in the way of another.
namespace ControlPlane

theorem Node.get?_put (n new : Node) (path below : List Name) :
    (n.put path new).get? (path ++ below) = new.get? below := by
  induction path generalizing n with
  | nil => rfl
  | cons name path ih =>
    rw [put, List.cons_append, get?, child?, entries, lookup_insertEntry, if_pos rfl,
      Option.bind_some, ih]

namespace Volume

theorem kindAt_below {v : Volume} {place : List Name} {node : Node}
    (here : v.node? place = some node) (below : List Name) :
    v.kindAt (place ++ below) = node.kindAt below := by
  have top : v.topNode.get? place = some node := here
  rw [kindAt, Node.kindAt, Node.get?_append, top]
  rfl

end Volume

namespace Transfer

open Volume

def grafted (names : List String) (node : Node) : Volume := emptyRoot.put (placeFor names) node

theorem kindAt_grafted (names : List String) (node : Node) (below : List Name) :
    (grafted names node).kindAt (placeFor names ++ below) = node.kindAt below := by
  have put : (grafted names node).topNode = emptyRoot.topNode.put (placeFor names) node := rfl
  rw [kindAt, put, Node.kindAt, Node.get?_put]
  rfl

variable {source : Volume} {excludes : List Pattern} {src dest : String} {opts : TransferOpts}
  {names : List String} {entries : List TransferEntry} {list : List (List String × Kind)}
  {f : List String × Kind} {node : Node}

theorem dest_entryAt (clean : ∀ name ∈ names, IsCleanName name)
    (plain : trimSource src = cleanText names) (below : ∀ name ∈ f.1, IsCleanName name) :
    (entryAt source src dest f).dest = cleanText (landing source src dest ++ f.1) := by
  unfold entryAt landing
  by_cases none : dest = ""
  · rw [if_pos none, if_pos none, plain, pathNames_of_clean clean]
    exact descend_cleanText (fun name member => (clean name member).2.1) below
  · rw [if_neg none, if_neg none]

theorem read_entryAt (linkless : source.Linkless) (level : ".." ∉ segments (trimSource src))
    (laid : LaidOut source excludes src dest list entries)
    (planned : planPlain source excludes src dest = .ok entries) (member : f ∈ list)
    (kept : (entryAt source src dest f).dest ≠ ".") :
    ∃ found, source.statPath (descend (trimSource src) f.1) = .ok found ∧ found.kind = f.2 ∧
      Storable (pathNames (trimSource src) ++ f.1) := by
  have inside : entryAt source src dest f ∈ entries := by
    rw [laid.entries_eq, List.mem_filter]
    exact ⟨List.mem_map_of_mem member, by simpa using kept⟩
  obtain ⟨found, read, _⟩ := (planned_of_planPlain planned _ inside).found
  have clean := laid.clean member
  have there := there_of_statPath linkless (level_descend level clean) read
  rw [pathNames_descend clean] at there
  have kind := ((laid.mem_iff f.1 f.2).1 member).1.there
  rw [kindAt_of_node there.1, Option.some.injEq] at kind
  exact ⟨found, read, kind, there.2⟩

theorem storable_landing (storable : Storable (pathNames dest))
    (start : Storable (pathNames (trimSource src))) : Storable (landing source src dest) :=
  fun name member => (mem_of_landing member).elim (storable name) (start name)

theorem fits_grafted (tree : PlainTree source) (level : ".." ∉ segments (trimSource src))
    (destLevel : ".." ∉ segments dest) (clean : ∀ name ∈ names, IsCleanName name)
    (plain : trimSource src = cleanText names) (storable : Storable (pathNames dest))
    (laid : LaidOut source excludes src dest list entries)
    (planned : planPlain source excludes src dest = .ok entries)
    (here : source.node? (placeFor (pathNames (trimSource src))) = some node) (member : f ∈ list)
    (kept : (entryAt source src dest f).dest ≠ ".") :
    Fits source (grafted (landing source src dest) node) (entryAt source src dest f)
      (landing source src dest ++ f.1) := by
  have below := laid.clean member
  have spelled : (entryAt source src dest f).dest = _ := dest_entryAt clean plain below
  obtain ⟨found, read, kind, stored⟩ := read_entryAt tree.linkless level laid planned member kept
  obtain ⟨start, under⟩ := storable_append.1 stored
  have there := ((laid.mem_iff f.1 f.2).1 member).1.there
  have same : (grafted (landing source src dest) node).kindAt
      (placeFor (landing source src dest ++ f.1)) = some f.2 := by
    rw [placeFor_append, kindAt_grafted, ← kindAt_below here, ← placeFor_append, there]
  refine ⟨spelled, fun none => ?_,
    List.forall_mem_append.2 ⟨landing_clean level destLevel, below⟩,
    storable_append.2 ⟨storable_landing storable start, under⟩, fun isDir => ?_, fun isFile => ?_⟩
  · rw [none] at spelled
    exact kept spelled
  · rw [same, eq_of_beq isDir]
  · -- What is no directory and no link is a file, and its content is what was read.
    have other : (f.2 == .dir) = false := isFile
    cases kinds : f.2 with
    | dir => simp [kinds] at other
    | link => exact absurd (kinds ▸ there) (tree.linkless _)
    | file content =>
      rw [kinds, Node.kind_eq_file] at kind
      exact ⟨content, kind ▸ read, kinds ▸ same⟩

theorem exists_fits (tree : PlainTree source) (clean : ∀ name ∈ names, IsCleanName name)
    (plain : trimSource src = cleanText names) (literal : isWild src = false)
    (storable : Storable (pathNames opts.dest)) (planned : plan source src opts = .ok entries) :
    ∃ model, Within model emptyRoot ∧ (entries.map fun entry => pathPlace entry.dest).Nodup ∧
      ∀ entry ∈ entries, ∃ names, Fits source model entry names := by
  obtain ⟨level, destLevel, excludes, _, made⟩ := plan_levels literal planned
  obtain ⟨list, laid⟩ := exists_laidOut tree level destLevel made
  by_cases nothing : entries = []
  · refine ⟨emptyRoot, fun place => .inr rfl, by simp [nothing], fun entry member => ?_⟩
    rw [nothing] at member
    cases member
  obtain ⟨node, read⟩ := found_of_planPlain made
  have here := (there_of_statPath tree.linkless level read).1
  have fits : ∀ entry ∈ entries, ∃ names,
      Fits source (grafted (landing source src opts.dest) node) entry names := by
    intro entry member
    rw [laid.entries_eq, List.mem_filter, List.mem_map] at member
    obtain ⟨⟨f, inside, rfl⟩, kept⟩ := member
    exact ⟨_, fits_grafted tree level destLevel clean plain storable laid made here inside
      (by simpa using kept)⟩
  refine ⟨_, emptyRoot_within ?_, (laid.apart level destLevel).2, fits⟩
  -- Something stands below the root, so the root is a directory.
  obtain ⟨entry, member⟩ := List.exists_mem_of_ne_nil entries nothing
  obtain ⟨names, fit⟩ := fits entry member
  have inner : names.map bytesOf ≠ [] := by simpa using fit.some
  have there : (grafted (landing source src opts.dest) node).kindAt
      ([rootName] ++ names.map bytesOf) ≠ none := fit.there
  exact Node.kindAt_above inner there

structure Exactly (source : Volume) (entries : List TransferEntry) (w : Volume) : Prop where
  there_iff : ∀ place, w.kindAt place ≠ none ↔ place <+: [rootName] ∨ OnWay entries place
  above : ∀ place, OnWay entries place → (∀ e ∈ entries, pathPlace e.dest ≠ place) →
    w.kindAt place = some .dir
  dirs : ∀ e ∈ entries, e.isDir = true → ∃ inner, w.statPath e.dest = .ok (.dir inner)
  files : ∀ e ∈ entries, e.isDir = false → Delivered source w e

theorem exactly_of_fills {model after : Volume}
    (fits : ∀ entry ∈ entries, ∃ names, Fits source model entry names)
    (copied : Copied source emptyRoot after entries)
    (fills : Fills model (OnWay entries) emptyRoot after) : Exactly source entries after := by
  refine ⟨fun place => ⟨fun there => ?_, fun on => ?_⟩, fun place way away => ?_,
    fun e member isDir => ?_, fun e member isFile => ?_⟩
  · by_cases way : OnWay entries place
    · exact .inr way
    · rw [fills.others place way, kindAt_emptyRoot] at there
      left
      split at there
      · rename_i top
        rcases top with rfl | rfl
        · exact List.nil_prefix
        · exact List.prefix_rfl
      · exact absurd rfl there
  · rcases on with top | way
    · have root : after.kindAt [rootName] = some .dir := copied.grows.dirs _ rfl
      simp [kindAt_dir_front root top]
    · exact copied.there_onWay way
  · exact (copied.above_onWay way).resolve_left fun ⟨e, member, same⟩ => away e member same
  · exact (statPath_dir_iff copied.free).2 ⟨copied.reaches e member, copied.dirs e member isDir⟩
  · obtain ⟨names, fit⟩ := fits e member
    obtain ⟨content, held, file⟩ := fit.file isFile
    have there := fills.filled _ (onWay_dest member)
    rw [fit.place, file, ← fit.place] at there
    exact ⟨content, content, held,
      (statPath_file_iff copied.free).2 ⟨copied.reaches e member, there⟩, rfl⟩

-- Whatever is planned for a plain source is carried out in an empty volume, and the volume
-- holds that and nothing else. The summary counts what is in the plan.
theorem run_into_empty (tree : PlainTree source) (clean : ∀ name ∈ names, IsCleanName name)
    (plain : trimSource src = cleanText names) (literal : isWild src = false)
    (storable : Storable (pathNames opts.dest)) (planned : plan source src opts = .ok entries) :
    ∃ after, run source emptyRoot src opts = (.ok (summaryOf source entries), after) ∧
      Exactly source entries after := by
  obtain ⟨model, within, apart, fits⟩ := exists_fits tree clean plain literal storable planned
  obtain ⟨summary, after, ran, fills⟩ := copyEntries_emptyRoot fits apart within
  have some : ∀ entry ∈ entries, entry.dest ≠ "" := by
    intro entry member
    obtain ⟨names, fit⟩ := fits entry member
    rw [fit.dest]
    exact cleanText_ne_empty fit.clean
  have free : emptyRoot.LinkFree := linkFree_of_descendants (by decide)
  have copied := copyEntries_ok free some ran
  refine ⟨after, ?_, exactly_of_fills fits copied fills⟩
  rw [run_eq_of_plan planned ran, copyEntries_summary ran]
  simp [TransferSummary.zero]

theorem run_into_empty_nestedFile : PlainTree nestedFile ∧ (∀ name ∈ ["a"], IsCleanName name) ∧
    trimSource "a/" = cleanText ["a"] ∧ isWild "a/" = false ∧ Storable (pathNames "out/in") ∧
    plan nestedFile "a/" ⟨"out/in", ["c"]⟩ = .ok [⟨"a/b", "out/in/b", false⟩] ∧
    ∃ after, run nestedFile emptyRoot "a/" ⟨"out/in", ["c"]⟩ = (.ok ⟨1, 0, 0⟩, after) ∧
      Exactly nestedFile [⟨"a/b", "out/in/b", false⟩] after := by
  have clean : ∀ name ∈ ["a"], IsCleanName name := by simp [IsCleanName]
  have storable : Storable (pathNames "out/in") := by decide
  have planned : plan nestedFile "a/" ⟨"out/in", ["c"]⟩ = .ok [⟨"a/b", "out/in/b", false⟩] := by
    decide +kernel
  exact ⟨plainTree_nestedFile, clean, rfl, rfl, storable, planned,
    run_into_empty plainTree_nestedFile clean rfl rfl storable planned⟩

end Transfer

end ControlPlane
