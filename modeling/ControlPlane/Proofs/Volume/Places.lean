import ControlPlane.Proofs.Volume.Ways
-- The places of clean names below a root that holds no links: a path of such names leads
-- to what stands there, if a file system can store all of them.
namespace ControlPlane

def Storable (names : List String) : Prop :=
  ∀ name ∈ names, (bytesOf name).length ≤ Volume.longestName ∧ 0 ∉ bytesOf name

instance (names : List String) : Decidable (Storable names) :=
  inferInstanceAs (Decidable (∀ name ∈ names, _))

theorem Storable.no_nul {names : List String} (storable : Storable names) :
    ¬ ∃ name ∈ names, 0 ∈ bytesOf name := by
  rintro ⟨name, member, nul⟩
  exact (storable name member).2 nul

theorem storable_append {names more : List String} :
    Storable (names ++ more) ↔ Storable names ∧ Storable more := List.forall_mem_append

theorem zero_mem_joinNames {names : List String} :
    0 ∈ bytesOf (joinNames names) ↔ ∃ name ∈ names, 0 ∈ bytesOf name := by
  induction names with
  | nil => exact iff_of_false (by decide) (by simp)
  | cons name rest ih =>
    by_cases last : rest = []
    · subst last
      simp [joinNames]
    · rw [show joinNames (name :: rest) = name ++ "/" ++ joinNames rest from
        String.intercalate_cons_of_ne_nil last, bytesOf_append_slash]
      simp [ih]

theorem pathSteps_joinNames {names : List String} (some : names ≠ [])
    (clean : ∀ name ∈ names, IsCleanName name) :
    Volume.pathSteps (joinNames names) =
      if ∃ name ∈ names, 0 ∈ bytesOf name then .error .holdsNul
      else .ok (names.map bytesOf) := by
  have relative : (bytesOf (joinNames names)).head? ≠ Option.some 47 := by
    intro slash
    obtain ⟨rest, whole⟩ := List.head?_eq_some_iff.1 slash
    have parts := splitOn_joinNames some fun name member => (clean name member).2.2.2
    rw [whole, List.splitOn_cons_eq_if_modifyHead, if_pos (by rfl)] at parts
    have empty : [] ∈ names.map bytesOf := by simp [← parts]
    obtain ⟨name, present, none⟩ := List.mem_map.1 empty
    exact bytesOf_ne_nil (clean name present).1 none
  unfold Volume.pathSteps
  simp only [List.contains_eq_mem, decide_eq_true_eq, zero_mem_joinNames, if_neg relative,
    (steps_joinNames some clean).1]

theorem lossyTextOf_bytesOf (text : String) : lossyTextOf (bytesOf text) = text := by
  rw [lossyTextOf, bytesOf, Utf8.decodeLossy, Utf8.scan_encode, List.map_map,
    show ((fun c => c.getD '\uFFFD') ∘ some : Char → Char) = id from rfl, List.map_id,
    String.ofList_toList]

namespace Node

theorem height_of_mem {entries : Entries} {entry : Name × Node} (member : entry ∈ entries) :
    entry.2.height ≤ heightOfEntries entries := by
  induction entries with
  | nil => cases member
  | cons head rest ih =>
    rw [heightOfEntries]
    rcases List.mem_cons.1 member with rfl | later
    · exact Nat.le_max_left _ _
    · exact Nat.le_trans (ih later) (Nat.le_max_right _ _)

theorem length_le_height {n node : Node} {path : List Name} (there : n.get? path = some node) :
    path.length ≤ n.height := by
  induction path generalizing n with
  | nil => exact Nat.zero_le _
  | cons name path ih =>
    obtain ⟨child, held, below⟩ := Option.bind_eq_some_iff.1 there
    cases n with
    | file content => cases held
    | link target => cases held
    | dir entries =>
      have deep : child.height ≤ heightOfEntries entries := height_of_mem (mem_of_lookup held)
      have inner : path.length ≤ child.height := ih below
      rw [height, List.length_cons]
      omega

end Node

namespace Volume

def placeFor (names : List String) : List Name := rootName :: names.map bytesOf

theorem placeFor_append (names more : List String) :
    placeFor (names ++ more) = placeFor names ++ more.map bytesOf := by
  simp [placeFor]

theorem placeFor_injective {names other : List String} (same : placeFor names = placeFor other) :
    names = other :=
  (List.map_inj_right fun _ _ => bytesOf_injective).1 (List.tail_eq_of_cons_eq same)

theorem cleanText_of_ne_nil {names : List String} (some : names ≠ []) :
    cleanText names = joinNames names := by
  simp [cleanText, some]

theorem pathPlace_cleanText {names : List String} (some : names ≠ [])
    (clean : ∀ name ∈ names, IsCleanName name) : pathPlace (cleanText names) = placeFor names := by
  rw [cleanText_of_ne_nil some, pathPlace_joinNames some clean]
  rfl

theorem placeFor_prefix_iff {names other : List String} :
    placeFor names <+: placeFor other ↔ names <+: other := by
  rw [placeFor, placeFor, List.cons_prefix_cons, and_iff_right rfl]
  constructor
  · rintro ⟨rest, whole⟩
    obtain ⟨one, two, rfl, first, _⟩ := List.map_eq_append_iff.1 whole.symm
    rw [(List.map_inj_right fun _ _ => bytesOf_injective).1 first]
    exact List.prefix_append names two
  · exact fun part => part.map bytesOf

def Linkless (v : Volume) : Prop := ∀ place, v.kindAt (rootName :: place) ≠ some .link

def Spelled (v : Volume) : Prop :=
  ∀ place name, v.kindAt (rootName :: (place ++ [name])) ≠ none →
    ∃ text, IsCleanName text ∧ bytesOf text = name

theorem spelled_of_descendants {v : Volume}
    (texts : ∀ d ∈ v.topNode.descendants, ∀ name ∈ d.1,
      isProperName name = true ∧ bytesOf (lossyTextOf name) = name) : v.Spelled := by
  intro place name there
  obtain ⟨kind, standing⟩ := Option.ne_none_iff_exists'.1 there
  obtain ⟨node, here, _⟩ := kindAt_eq_some.1 standing
  have below := Node.mem_descendants (List.cons_ne_nil rootName _) here
  obtain ⟨proper, same⟩ := texts _ below name (by simp)
  exact ⟨_, lossyTextOf_clean proper, same⟩

structure Named (steps : List Name) : Prop where
  plain : Plain steps
  short : ∀ step ∈ steps, step.length ≤ longestName

theorem Named.of_subset {some steps : List Name} (named : Named steps) (part : some ⊆ steps) :
    Named some :=
  ⟨fun step member => named.plain step (part member),
    fun step member => named.short step (part member)⟩

theorem Named.left {steps more : List Name} (named : Named (steps ++ more)) : Named steps :=
  named.of_subset (List.subset_append_left _ _)

theorem Named.right {steps more : List Name} (named : Named (steps ++ more)) : Named more :=
  named.of_subset (List.subset_append_right _ _)

theorem named_of_storable {names : List String} (clean : ∀ name ∈ names, IsCleanName name)
    (storable : Storable names) : Named (names.map bytesOf) := by
  refine ⟨plain_of_clean clean, fun step member => ?_⟩
  obtain ⟨name, present, rfl⟩ := List.mem_map.1 member
  exact (storable name present).1

variable {v : Volume} {onLink : List Name → List Name → Except Fault Spot}
  {here steps : List Name} {kind : Kind} {node : Node} {names : List String}

theorem kindAt_front {front place : List Name} (there : v.kindAt place ≠ none)
    (part : front <+: place) : front = place ∨ v.kindAt front = some .dir := by
  obtain ⟨rest, rfl⟩ := part
  by_cases last : rest = []
  · exact .inl (by rw [last, List.append_nil])
  · exact .inr (Node.kindAt_above last there)

theorem kindAt_dir_front {front place : List Name} (dir : v.kindAt place = some .dir)
    (part : front <+: place) : v.kindAt front = some .dir := by
  have there : v.kindAt place ≠ none := by simp [dir]
  rcases kindAt_front there part with rfl | above
  · exact dir
  · exact above

theorem follow_through (named : Named steps) (there : v.kindAt (here ++ steps) = some kind)
    (noLink : kind ≠ .link) (more : List Name) :
    v.follow onLink here (steps ++ more) = v.follow onLink (here ++ steps) more := by
  induction steps generalizing here with
  | nil => rw [List.nil_append, List.append_nil]
  | cons step steps ih =>
    have exists_ : v.kindAt (here ++ step :: steps) ≠ none := by simp [there]
    have dir : v.kindAt here = some .dir := Node.kindAt_above (by simp) exists_
    obtain ⟨entries, at_, below⟩ := entries_of_dir dir
    have here_ : Named ([step] ++ steps) := named
    have first := named.plain step (by simp)
    rw [List.append_cons] at there exists_
    have next := ih here_.right there
    have held : (entries.lookup step).map Node.kind ≠ none ∧
        (entries.lookup step).map Node.kind ≠ some .link := by
      rw [← below]
      rcases kindAt_front exists_ (List.prefix_append (here ++ [step]) steps) with same | inner
      · rw [same, there]
        simpa using noLink
      · simp [inner]
    rw [List.cons_append, Volume.follow, at_]
    dsimp only
    rw [if_neg first.1, if_neg first.2, if_neg (Nat.not_lt.2 (named.short step (by simp))),
      show here ++ step :: steps = here ++ [step] ++ steps from List.append_cons ..]
    cases found : entries.lookup step with
    | none => simp [found] at held
    | some child =>
      cases child with
      | link target => simp [found, Node.kind] at held
      | file content => exact next
      | dir inner => exact next

-- Where there are no links steps that do not climb lead nowhere else, and dots make no
-- difference.
theorem place_of_follow {place : List Name}
    (linkless : ∀ more, v.kindAt (here ++ more) ≠ some .link) (level : dotDot ∉ steps)
    (ran : v.follow onLink here steps = .ok (.taken place)) :
    place = here ++ steps.filter (· ≠ dot) ∧
      ∀ step ∈ steps.filter (· ≠ dot), step.length ≤ longestName := by
  induction steps generalizing here with
  | nil =>
    cases ran
    exact ⟨(List.append_nil _).symm, by simp⟩
  | cons step steps ih =>
    rw [List.mem_cons, not_or] at level
    unfold Volume.follow at ran
    split at ran
    · cases ran
    · rename_i entries at_
      split at ran
      · rename_i single
        rw [List.filter_cons_of_neg (by simpa using single)]
        exact ih linkless level.2 ran
      · rename_i plain
        rw [if_neg (Ne.symm level.1)] at ran
        rw [List.filter_cons_of_pos (by simpa using plain)]
        split at ran
        · cases ran
        · rename_i fits
          have below := kindAt_child at_
          split at ran
          · split at ran <;> cases ran
          · rename_i target link
            exact absurd (by rw [below, link]; rfl) (linkless [step])
          · obtain ⟨rfl, short⟩ := ih (fun more => by rw [List.append_assoc]; exact linkless _)
              level.2 ran
            refine ⟨(List.append_cons ..).symm, fun s member => ?_⟩
            rcases List.mem_cons.1 member with rfl | later
            · exact Nat.le_of_not_lt fits
            · exact short s later
    · cases ran

theorem spot_of_there (there : v.kindAt (rootName :: steps) = some kind) (more : List Name) :
    v.spot more = v.follow (v.walk 39) [rootName] more := by
  unfold Volume.spot
  split
  · rename_i none
    have below : v.kindAt (rootName :: steps) = (v.root?.bind (·.get? steps)).map Node.kind := rfl
    rw [there, none] at below
    cases below
  · rfl

theorem find_place (named : Named steps) (there : v.kindAt (rootName :: steps) = some kind)
    (noLink : kind ≠ .link) : v.find steps = .ok (rootName :: steps) := by
  have way : v.follow (v.walk 39) [rootName] (steps ++ []) = v.follow _ (rootName :: steps) [] :=
    follow_through named there noLink []
  rw [List.append_nil] at way
  rw [find_eq_ok, spot_of_there there, way, Volume.follow]

theorem spot_free {step : Name} (named : Named (steps ++ [step]))
    (dir : v.kindAt (rootName :: steps) = some .dir)
    (missing : v.kindAt (rootName :: (steps ++ [step])) = none) :
    v.spot (steps ++ [step]) = .ok (.free (rootName :: steps) step) := by
  obtain ⟨entries, at_, below⟩ := entries_of_dir dir
  have last := named.plain step (by simp)
  have absent := below step
  rw [List.cons_append, missing] at absent
  have way : v.follow (v.walk 39) [rootName] (steps ++ [step]) = v.follow _ (rootName :: steps) [step] :=
    follow_through named.left dir (by simp) [step]
  rw [spot_of_there dir, way]
  simp [Volume.follow, at_, last, Nat.not_lt.2 (named.short step (by simp)),
    Option.map_eq_none_iff.1 absent.symm]

theorem follow_of_find {place : List Name} (found : v.find steps = .ok place) :
    v.follow (v.walk 39) [rootName] steps = .ok (.taken place) := by
  have spot := find_eq_ok.1 found
  unfold Volume.spot at spot
  split at spot
  · cases spot
  · exact spot

theorem statPath_dot : v.statPath "." = .ok node ↔
    v.node? (placeFor []) = some node ∧ node.isDir = true := by
  have read : pathSteps "." = .ok [dot] := rfl
  have start : v.statPath "." = v.stat [dot] := by rw [statPath, read]; rfl
  rw [start]
  constructor
  · intro ran
    obtain ⟨place, found, there⟩ := find_of_stat ran
    have way := follow_of_find found
    unfold Volume.follow at way
    split at way
    · cases way
    · rename_i entries at_
      rw [if_pos rfl, Volume.follow] at way
      cases way
      cases at_.symm.trans there
      exact ⟨there, rfl⟩
    · cases way
  · rintro ⟨there, isDir⟩
    cases node with
    | file content => cases isDir
    | link target => cases isDir
    | dir entries =>
      refine stat_of_find (find_eq_ok.2 ?_) there
      have dir : v.kindAt (placeFor []) = some .dir := kindAt_of_node there
      rw [spot_of_there dir, Volume.follow,
        show v.node? [rootName] = some (.dir entries) from there]
      simp [Volume.follow, placeFor]

theorem statPath_cleanText (linkless : v.Linkless) (clean : ∀ name ∈ names, IsCleanName name) :
    v.statPath (cleanText names) = .ok node ↔
      Storable names ∧ v.node? (placeFor names) = some node ∧ (names = [] → node.isDir = true) := by
  by_cases none : names = []
  · subst none
    rw [show cleanText [] = "." from rfl, statPath_dot]
    simp [Storable]
  · have plain := plain_of_clean clean
    rw [cleanText_of_ne_nil none, statPath, pathSteps_joinNames none clean]
    constructor
    · intro ran
      split at ran
      · cases ran
      · rename_i noNul
        obtain ⟨place, found, there⟩ := find_of_stat ran
        obtain ⟨rfl, short⟩ := @place_of_follow v _ [rootName] _ _ linkless plain.level
          (follow_of_find found)
        rw [plain.filter_dot] at there short
        refine ⟨fun name member => ⟨short _ (List.mem_map_of_mem member), fun nul => ?_⟩, there,
          fun empty => absurd empty none⟩
        exact noNul ⟨name, member, nul⟩
    · rintro ⟨storable, there, _⟩
      rw [if_neg storable.no_nul]
      have kind : v.kindAt (placeFor names) = some node.kind := kindAt_of_node there
      have noLink : node.kind ≠ .link := by
        intro link
        exact linkless (names.map bytesOf) (link ▸ kind)
      exact stat_of_find (find_place (named_of_storable clean storable) kind noLink) there

theorem statPath_of_dir (linkless : v.Linkless) (clean : ∀ name ∈ names, IsCleanName name)
    (storable : Storable names) (dir : v.kindAt (placeFor names) = some .dir) :
    ∃ entries, v.statPath (cleanText names) = .ok (.dir entries) := by
  obtain ⟨entries, at_, _⟩ := entries_of_dir dir
  exact ⟨entries, (statPath_cleanText linkless clean).2 ⟨storable, at_, fun _ => rfl⟩⟩

theorem statPath_of_file {content : File} (linkless : v.Linkless)
    (clean : ∀ name ∈ names, IsCleanName name) (storable : Storable names) (inner : names ≠ [])
    (file : v.kindAt (placeFor names) = some (.file content)) :
    v.statPath (cleanText names) = .ok (.file content) := by
  have root : names = [] → (Node.file content).isDir = true := fun none => absurd none inner
  exact (statPath_cleanText linkless clean).2 ⟨storable, kindAt_eq_file.1 file, root⟩

end Volume

end ControlPlane
