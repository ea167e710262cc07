import ControlPlane.Proofs.Transfer.Taking
-- What the plan of a plain source holds when the names in a volume are texts and nothing
-- is a link: everything at the source and below it, down to where an exclude matches.
namespace ControlPlane.Transfer

open Volume

structure Listed (v : Volume) (excludes : List Pattern) (names more : List String) (kind : Kind) :
    Prop where
  clean : ∀ name ∈ more, IsCleanName name
  there : v.kindAt (placeFor (names ++ more)) = some kind
  passes : ∀ front, front <+: more → Passes excludes (cleanText (names ++ front))

variable {v : Volume} {excludes : List Pattern} {names more : List String} {name : String}
  {kind : Kind} {depth : Nat} {found : List (String × Bool)} {entries : Entries}

theorem clean_concat (clean : ∀ name ∈ names, IsCleanName name) (last : IsCleanName name) :
    ∀ n ∈ names ++ [name], IsCleanName n :=
  List.forall_mem_append.2 ⟨clean, by simpa using last⟩

theorem listed_iff_taken (clean : ∀ name ∈ names, IsCleanName name) :
    Listed v excludes names more kind ↔ Taken v excludes (cleanText names) more kind := by
  have path : ∀ front, front <+: more → (∀ name ∈ more, IsCleanName name) →
      descend (cleanText names) front = cleanText (names ++ front) := fun front part below =>
    descend_cleanText (fun name member => (clean name member).2.1)
      fun name member => below name (part.subset member)
  constructor
  · intro listed
    refine ⟨listed.clean, ?_, fun front part => ?_⟩
    · rw [pathNames_of_clean clean]
      exact listed.there
    · rw [path front part listed.clean]
      exact listed.passes front part
  · intro taken
    have there := taken.there
    rw [pathNames_of_clean clean] at there
    refine ⟨taken.clean, there, fun front part => ?_⟩
    rw [← path front part taken.clean]
    exact taken.passes front part

theorem mem_walkFrom (linkless : v.Linkless) (spelled : v.Spelled)
    (clean : ∀ name ∈ names, IsCleanName name)
    (walked : walkFrom v excludes depth (cleanText names) = .ok found) (f : String × Bool) :
    f ∈ found ↔ ∃ more kind, Listed v excludes names more kind ∧
      f = (cleanText (names ++ more), kind == .dir) := by
  obtain ⟨list, survey, rfl⟩ :=
    survey_of_walkFrom linkless spelled (level_cleanText clean) walked
  have path : ∀ more, (∀ name ∈ more, IsCleanName name) →
      descend (cleanText names) more = cleanText (names ++ more) := fun more below =>
    descend_cleanText (fun name member => (clean name member).2.1) below
  simp only [surveyed, List.mem_map, Prod.exists, survey.mem_iff, ← listed_iff_taken clean]
  constructor
  · rintro ⟨more, kind, listed, rfl⟩
    exact ⟨more, kind, listed, by rw [path more listed.clean]⟩
  · rintro ⟨more, kind, listed, rfl⟩
    exact ⟨more, kind, listed, by rw [path more listed.clean]⟩

theorem exists_walkFrom (linkless : v.Linkless) (spelled : v.Spelled)
    (storable : ∀ names : List String, v.kindAt (placeFor names) ≠ none → Storable names)
    (clean : ∀ name ∈ names, IsCleanName name) {node : Node}
    (here : v.node? (placeFor names) = some node) (root : names = [] → node.isDir = true)
    (deep : v.topNode.height < depth + (placeFor names).length) :
    ∃ found, walkFrom v excludes depth (cleanText names) = .ok found := by
  -- The depth that is left is more than what can stand below, so it does not run out.
  induction depth generalizing names node with
  | zero =>
    have short := Node.length_le_height here
    omega
  | succ depth ih =>
    have kind : v.kindAt (placeFor names) ≠ none := by
      rw [kindAt_of_node here]
      simp
    have read := (statPath_cleanText linkless clean).2 ⟨storable names kind, here, root⟩
    rw [walkFrom, read]
    split
    · exact ⟨[], rfl⟩
    · cases node with
      | file content => exact ⟨_, rfl⟩
      | link target => exact ⟨_, rfl⟩
      | dir entries =>
        have inner : ∀ name ∈ sortTexts (entries.map fun e => lossyTextOf e.1), ∃ found,
            walkFrom v excludes depth (childPath (cleanText names) name) = .ok found := by
          intro name member
          obtain ⟨one, below⟩ := (mem_names spelled here).1 member
          obtain ⟨kind, there⟩ := Option.ne_none_iff_exists'.1 below
          obtain ⟨child, standing, _⟩ := kindAt_eq_some.1 there
          rw [childPath_cleanText fun name member => (clean name member).2.1]
          refine ih (clean_concat clean one) standing (by simp) ?_
          rw [placeFor_append, List.length_append, List.length_map, List.length_singleton]
          omega
        obtain ⟨lists, below⟩ := exists_mapM inner
        dsimp only
        rw [below]
        exact ⟨_, rfl⟩

def Chosen (v : Volume) (excludes : List Pattern) (names : List String) (entry : TransferEntry) :
    Prop :=
  ∃ more kind, Listed v excludes names more kind ∧ names ++ more ≠ [] ∧
    entry = ⟨cleanText (names ++ more), cleanText (names ++ more), kind == .dir⟩

theorem cleanText_eq_dot (clean : ∀ name ∈ names, IsCleanName name) :
    cleanText names = "." ↔ names = [] := by
  constructor
  · intro root
    by_contra some
    rw [cleanText, if_neg (by simpa using some)] at root
    rw [joinNames_eq_dot root] at clean
    exact (clean "." (by simp)).2.1 rfl
  · rintro rfl
    rfl

theorem cleanText_last (clean : ∀ name ∈ names, IsCleanName name) :
    (cleanText names).toList.getLast? ≠ some '/' := by
  apply last_ne_slash
  rw [segments_cleanText fun name member => (clean name member).2.2.2]
  split
  · decide
  · exact fun empty => (clean "" empty).1 rfl

theorem trimSource_cleanText (clean : ∀ name ∈ names, IsCleanName name) :
    trimSource (cleanText names) = cleanText names := by
  rw [trimSource, trimSlashes_of_last (cleanText_last clean)]
  exact if_neg (cleanText_ne_empty clean)

theorem endsInSlash_cleanText (clean : ∀ name ∈ names, IsCleanName name) :
    endsInSlash (cleanText names) = false := by
  simpa [endsInSlash] using cleanText_last clean

theorem mem_entriesFor_kept {base : String} (entry : TransferEntry) :
    entry ∈ entriesFor "" base found ↔
      ∃ f ∈ found, f.1 ≠ "." ∧ entry = ⟨f.1, f.1, f.2⟩ := by
  simp only [entriesFor, destFor, if_true, List.mem_filter, List.mem_map, decide_eq_true_eq]
  constructor
  · rintro ⟨⟨f, present, rfl⟩, inner⟩
    exact ⟨f, present, inner, rfl⟩
  · rintro ⟨f, present, inner, rfl⟩
    exact ⟨⟨f, present, rfl⟩, inner⟩

theorem planPlain_cleanText (clean : ∀ name ∈ names, IsCleanName name) {node : Node}
    (here : v.statPath (cleanText names) = .ok node) :
    planPlain v excludes (cleanText names) "" =
      if names = [] then planContents v excludes "." ""
      else if node.isDir then planDirectory v excludes (cleanText names) ""
      else .ok (planFile excludes (cleanText names) "") := by
  simp only [planPlain, trimSource_cleanText clean, here, endsInSlash_cleanText clean,
    Bool.false_eq_true, false_or, cleanText_eq_dot clean]
  split
  · rename_i root
    rw [root]
    rfl
  · rfl

theorem planFile_walk {path dest dest' base : String} {node : Node}
    (here : v.statPath path = .ok node) (inner : path ≠ ".") (plain : node.isDir = false)
    (same : fileDest path dest = destFor dest' base path) :
    ∃ found, walkFrom v excludes v.levels path = .ok found ∧
      planFile excludes path dest = entriesFor dest' base found := by
  obtain ⟨depth, levels⟩ := exists_levels v
  rw [levels]
  cases out : isExcluded excludes path with
  | true =>
    refine ⟨[], walkFrom_of_walkStep (.leftOut ?_), by simp [planFile, out, entriesFor]⟩
    simp [Passes, inner, out]
  | false =>
    refine ⟨[(path, false)], walkFrom_of_walkStep (.leaf (.inr out) here plain), ?_⟩
    simp [planFile, out, entriesFor, same]

theorem mem_planPlain {entries : List TransferEntry} (linkless : v.Linkless) (spelled : v.Spelled)
    (clean : ∀ name ∈ names, IsCleanName name)
    (planned : planPlain v excludes (cleanText names) "" = .ok entries) (entry : TransferEntry) :
    entry ∈ entries ↔ Chosen v excludes names entry := by
  obtain ⟨node, here⟩ := found_of_planPlain planned
  rw [trimSource_cleanText clean] at here
  -- A walk from the names finds what the entries are made of.
  have walked : ∀ found, walkFrom v excludes v.levels (cleanText names) = .ok found →
      ((∃ f ∈ found, f.1 ≠ "." ∧ entry = ⟨f.1, f.1, f.2⟩) ↔ Chosen v excludes names entry) := by
    intro found ran
    simp only [mem_walkFrom linkless spelled clean ran]
    constructor
    · rintro ⟨_, ⟨more, kind, listed, rfl⟩, inner, rfl⟩
      exact ⟨more, kind, listed, fun none => inner (by rw [none]; rfl), rfl⟩
    · rintro ⟨more, kind, listed, some, rfl⟩
      have all := List.forall_mem_append.2 ⟨clean, listed.clean⟩
      exact ⟨_, ⟨more, kind, listed, rfl⟩, fun root => some ((cleanText_eq_dot all).1 root), rfl⟩
  rw [planPlain_cleanText clean here] at planned
  split at planned
  · rename_i root
    subst root
    obtain ⟨found, ran, rfl⟩ := walkFrom_of_map planned
    rw [mem_entriesFor_kept, ← walked found ran]
    simp only [List.mem_filter, ne_eq, decide_not, Bool.not_eq_true', decide_eq_false_iff_not,
      and_assoc, and_self_left]
  · split at planned
    · obtain ⟨found, ran, rfl⟩ := walkFrom_of_map planned
      rw [mem_entriesFor_kept, walked found ran]
    · rename_i some file
      cases planned
      have kept : fileDest (cleanText names) "" = destFor "" "" (cleanText names) := by
        rw [fileDest, destFor, if_pos rfl, if_pos rfl]
      obtain ⟨found, ran, same⟩ := @planFile_walk v excludes _ _ _ _ node here
        (fun root => some ((cleanText_eq_dot clean).1 root)) (Bool.eq_false_iff.2 file) kept
      rw [same, mem_entriesFor_kept, walked found ran]

theorem exists_planPlain (linkless : v.Linkless) (spelled : v.Spelled)
    (storable : ∀ names : List String, v.kindAt (placeFor names) ≠ none → Storable names)
    (clean : ∀ name ∈ names, IsCleanName name) {node : Node}
    (here : v.node? (placeFor names) = some node) (root : names = [] → node.isDir = true) :
    ∃ entries, planPlain v excludes (cleanText names) "" = .ok entries := by
  have kind : v.kindAt (placeFor names) ≠ none := by
    rw [kindAt_of_node here]
    simp
  have read := (statPath_cleanText linkless clean).2 ⟨storable names kind, here, root⟩
  have deep : v.topNode.height < v.levels + (placeFor names).length := by
    rw [levels, linkLimit]
    omega
  obtain ⟨found, ran⟩ := @exists_walkFrom v excludes names v.levels linkless spelled storable clean
    node here root deep
  have walked : walk v excludes (cleanText names) = .ok found := by rw [walk, ran]; rfl
  rw [planPlain_cleanText clean read]
  split
  · rename_i none
    rw [none, show cleanText [] = "." from rfl] at walked
    exact ⟨_, by rw [planContents, walked]; rfl⟩
  · split
    · exact ⟨_, by rw [planDirectory, walked]; rfl⟩
    · exact ⟨_, rfl⟩

end ControlPlane.Transfer
