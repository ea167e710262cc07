import ControlPlane.Proofs.Transfer.Paths
import ControlPlane.Proofs.Volume.Order
import Mathlib.Data.List.Nodup
-- What a walk takes when the names in a volume are texts and nothing is a link:
-- everything at its start and below it, down to where an exclude matches, and in order.
namespace ControlPlane.Transfer

open Volume

-- A tree of directories and files whose names are texts. Its directories are kept in the
-- order of names.
structure PlainTree (v : Volume) : Prop where
  ordered : v.Ordered
  linkless : v.Linkless
  spelled : v.Spelled

-- What stands at names below a start, when no exclude matches on the way.
structure Taken (v : Volume) (excludes : List Pattern) (start : String) (names : List String)
    (kind : Kind) : Prop where
  clean : ∀ name ∈ names, IsCleanName name
  there : v.kindAt (placeFor (pathNames start ++ names)) = some kind
  passes : ∀ front, front <+: names → Passes excludes (descend start front)

-- The order of a walk: what is above comes before what is below it, and what is in one
-- directory comes in the order of the octets of the names.
def Before (one two : List String) : Prop := one.map bytesOf < two.map bytesOf

structure Survey (v : Volume) (excludes : List Pattern) (start : String)
    (list : List (List String × Kind)) : Prop where
  mem_iff : ∀ names kind, (names, kind) ∈ list ↔ Taken v excludes start names kind
  sorted : v.Ordered → list.Pairwise fun a b => Before a.1 b.1

def surveyed (start : String) (list : List (List String × Kind)) : List (String × Bool) :=
  list.map fun f => (descend start f.1, f.2 == .dir)

variable {v : Volume} {excludes : List Pattern} {start name : String} {names : List String}
  {kind : Kind} {depth : Nat} {found : List (String × Bool)} {entries : Entries}
  {list : List (List String × Kind)}

theorem before_cons_iff {one two : List String} :
    Before (name :: one) (name :: two) ↔ Before one two := by
  simp [Before]

theorem before_of_lt {other : String} {one two : List String} (less : name < other) :
    Before (name :: one) (other :: two) :=
  List.cons_lt_cons_iff.2 (.inl (bytesOf_lt_iff.2 less))

theorem before_nil : Before [] (name :: names) := List.nil_lt_cons ..

theorem level_childPath (level : ".." ∉ segments start) (clean : IsCleanName name) :
    ".." ∉ segments (childPath start name) := by
  have alone : segments name = [name] := segments_of_no_slash clean.2.2.2
  unfold childPath
  split
  · rw [alone, List.mem_singleton]
    exact clean.2.2.1.symm
  · rw [segments_append_slash, alone, List.mem_append, List.mem_singleton, not_or]
    exact ⟨level, clean.2.2.1.symm⟩

theorem kind_beq_dir (node : Node) : (node.kind == .dir) = node.isDir := by
  cases node <;> rfl

theorem spelled_entry (spelled : v.Spelled) (here : v.node? (placeFor names) = some (.dir entries))
    {entry : Name × Node} (member : entry ∈ entries) :
    IsCleanName (lossyTextOf entry.1) ∧ bytesOf (lossyTextOf entry.1) = entry.1 := by
  have held : entries.lookup entry.1 ≠ none := by
    intro none
    simpa using List.lookup_eq_none_iff.1 none entry member
  have there : v.kindAt (placeFor names ++ [entry.1]) ≠ none := by
    rw [kindAt_child here]
    simpa using held
  obtain ⟨text, clean, same⟩ := spelled _ _ there
  rw [← same, lossyTextOf_bytesOf]
  exact ⟨clean, rfl⟩

theorem mem_names (spelled : v.Spelled) (here : v.node? (placeFor names) = some (.dir entries)) :
    name ∈ sortTexts (entries.map fun e => lossyTextOf e.1) ↔
      IsCleanName name ∧ v.kindAt (placeFor (names ++ [name])) ≠ none := by
  have child : v.kindAt (placeFor (names ++ [name])) =
      (entries.lookup (bytesOf name)).map Node.kind := by
    rw [placeFor_append, ← kindAt_child here]
    rfl
  rw [mem_sortTexts, List.mem_map, child, ne_eq, Option.map_eq_none_iff, List.lookup_eq_none_iff]
  constructor
  · rintro ⟨entry, member, rfl⟩
    obtain ⟨clean, same⟩ := spelled_entry spelled here member
    refine ⟨clean, fun none => ?_⟩
    simpa [same] using none entry member
  · rintro ⟨clean, there⟩
    have some : entries.lookup (bytesOf name) ≠ none := by
      rwa [ne_eq, List.lookup_eq_none_iff]
    obtain ⟨node, held⟩ := Option.ne_none_iff_exists'.1 some
    exact ⟨_, mem_of_lookup held, lossyTextOf_bytesOf name⟩

theorem increasing_texts (ordered : v.Ordered) (spelled : v.Spelled)
    (here : v.node? (placeFor names) = some (.dir entries)) :
    (sortTexts (entries.map fun e => lossyTextOf e.1)).Pairwise (· < ·) := by
  have octets : (entries.map fun e => lossyTextOf e.1).map bytesOf = entries.map Prod.fst := by
    rw [List.map_map]
    exact List.map_congr_left fun entry member => (spelled_entry spelled here member).2
  have distinct : (entries.map Prod.fst).Nodup :=
    (Node.increasing_names (Node.ordered_get? ordered here)).imp fun less same => by
      rw [same] at less
      exact List.lt_irrefl _ less
  rw [← octets] at distinct
  exact sortTexts_increasing (List.Nodup.of_map bytesOf distinct)

theorem Taken.start_passes (taken : Taken v excludes start names kind) :
    Passes excludes start := taken.passes [] List.nil_prefix

theorem taken_nil (passes : Passes excludes start) :
    Taken v excludes start [] kind ↔ v.kindAt (placeFor (pathNames start)) = some kind := by
  constructor
  · intro taken
    have there := taken.there
    rwa [List.append_nil] at there
  · intro there
    refine ⟨by simp, by rwa [List.append_nil], fun front part => ?_⟩
    rw [List.prefix_nil.1 part]
    exact passes

theorem taken_cons : Taken v excludes start (name :: names) kind ↔
    IsCleanName name ∧ Passes excludes start ∧
      Taken v excludes (childPath start name) names kind := by
  have place (clean : IsCleanName name) : pathNames (childPath start name) ++ names =
      pathNames start ++ name :: names := by
    rw [pathNames_childPath clean, List.append_assoc]
    rfl
  constructor
  · intro taken
    have clean := taken.clean name (by simp)
    refine ⟨clean, taken.start_passes, fun n member => taken.clean n (by simp [member]), ?_,
      fun front part => taken.passes (name :: front) (List.cons_prefix_cons.2 ⟨rfl, part⟩)⟩
    rw [place clean]
    exact taken.there
  · rintro ⟨clean, passes, taken⟩
    refine ⟨List.forall_mem_cons.2 ⟨clean, taken.clean⟩, ?_, fun front part => ?_⟩
    · rw [← place clean]
      exact taken.there
    · cases front with
      | nil => exact passes
      | cons first front =>
        obtain ⟨rfl, later⟩ := List.cons_prefix_cons.1 part
        exact taken.passes front later

theorem Taken.start_dir (taken : Taken v excludes start (name :: names) kind) :
    v.kindAt (placeFor (pathNames start)) = some .dir := by
  have there : v.kindAt (placeFor (pathNames start) ++ (name :: names).map bytesOf) ≠ none := by
    rw [← placeFor_append, taken.there]
    simp
  exact Node.kindAt_above (by simp) there

theorem Taken.child_there (taken : Taken v excludes start (name :: names) kind) :
    v.kindAt (placeFor (pathNames start ++ [name])) ≠ none := by
  have there : v.kindAt (placeFor (pathNames start ++ name :: names)) ≠ none := by
    simp [taken.there]
  rw [List.append_cons] at there
  rcases kindAt_front there (placeFor_prefix_iff.2 (List.prefix_append _ names)) with same | dir
  · rwa [same]
  · simp [dir]

theorem survey_leaf {leaf : Kind} (passes : Passes excludes start)
    (here : v.kindAt (placeFor (pathNames start)) = some leaf) (noDir : leaf ≠ .dir) :
    Survey v excludes start [([], leaf)] := by
  refine ⟨fun names kind => ?_, fun _ => List.pairwise_singleton ..⟩
  rw [List.mem_singleton, Prod.mk.injEq]
  cases names with
  | nil =>
    rw [taken_nil passes, here, Option.some.injEq, and_iff_right rfl]
    exact eq_comm
  | cons name names =>
    refine iff_of_false (by simp) fun taken => ?_
    have dir := taken.start_dir
    rw [here, Option.some.injEq] at dir
    exact noDir dir

theorem exists_children {listed : List String} {lists : List (List (String × Bool))}
    (below : listed.mapM (fun name => walkFrom v excludes depth (childPath start name)) = .ok lists)
    (inner : ∀ name ∈ listed, ∀ found,
      walkFrom v excludes depth (childPath start name) = .ok found →
        ∃ list, Survey v excludes (childPath start name) list ∧
          found = surveyed (childPath start name) list) :
    ∃ all, lists.flatten = surveyed start all ∧
      (∀ names kind, (names, kind) ∈ all ↔ ∃ name ∈ listed, ∃ rest, names = name :: rest ∧
        Taken v excludes (childPath start name) rest kind) ∧
      (v.Ordered → listed.Pairwise (· < ·) → all.Pairwise fun a b => Before a.1 b.1) := by
  have pairs := mapM_eq_ok.1 below
  clear below
  induction pairs with
  | nil => exact ⟨[], rfl, by simp, fun _ _ => .nil⟩
  | @cons name found listed lists ran _ ih =>
    obtain ⟨list, survey, rfl⟩ := inner name (by simp) found ran
    obtain ⟨all, flat, member, sorted⟩ := ih fun other later => inner other (by simp [later])
    refine ⟨list.map (fun f => (name :: f.1, f.2)) ++ all, ?_, fun names kind => ?_, ?_⟩
    · rw [List.flatten_cons, flat, surveyed, surveyed, surveyed, List.map_append, List.map_map]
      rfl
    · rw [List.mem_append, member, List.exists_mem_cons_iff]
      refine or_congr_left ?_
      simp only [List.mem_map, Prod.exists, Prod.mk.injEq, survey.mem_iff]
      constructor
      · rintro ⟨rest, _, taken, rfl, rfl⟩
        exact ⟨rest, rfl, taken⟩
      · rintro ⟨rest, rfl, taken⟩
        exact ⟨rest, kind, taken, rfl, rfl⟩
    · intro ordered increasing
      obtain ⟨above, later⟩ := List.pairwise_cons.1 increasing
      refine List.pairwise_append.2 ⟨?_, sorted ordered later, fun a inside b behind => ?_⟩
      · rw [List.pairwise_map]
        exact (survey.sorted ordered).imp before_cons_iff.2
      · obtain ⟨one, _, rfl⟩ := List.mem_map.1 inside
        obtain ⟨other, listed, rest, path, _⟩ := (member b.1 b.2).1 behind
        rw [path]
        exact before_of_lt (above other listed)

theorem survey_dir (spelled : v.Spelled) (passes : Passes excludes start)
    (here : v.node? (placeFor (pathNames start)) = some (.dir entries))
    (member : ∀ names kind, (names, kind) ∈ list ↔
      ∃ name ∈ sortTexts (entries.map fun e => lossyTextOf e.1), ∃ rest, names = name :: rest ∧
        Taken v excludes (childPath start name) rest kind)
    (sorted : v.Ordered → list.Pairwise fun a b => Before a.1 b.1) :
    Survey v excludes start (([], .dir) :: list) := by
  refine ⟨fun names kind => ?_, fun ordered => ?_⟩
  · rw [List.mem_cons, Prod.mk.injEq, member]
    cases names with
    | nil =>
      rw [taken_nil passes, kindAt_of_node here, Option.some.injEq, and_iff_right rfl]
      simp [Node.kind, eq_comm]
    | cons name rest =>
      rw [taken_cons]
      constructor
      · rintro (⟨same, _⟩ | ⟨first, listed, others, same, taken⟩)
        · cases same
        · cases same
          exact ⟨((mem_names spelled here).1 listed).1, passes, taken⟩
      · intro all
        have whole : Taken v excludes start (name :: rest) kind := taken_cons.2 all
        exact .inr ⟨name, (mem_names spelled here).2 ⟨all.1, whole.child_there⟩, rest, rfl, all.2.2⟩
  · refine List.pairwise_cons.2 ⟨fun b behind => ?_, sorted ordered⟩
    obtain ⟨name, _, rest, path, _⟩ := (member b.1 b.2).1 behind
    rw [path]
    exact before_nil

theorem survey_of_walkFrom (linkless : v.Linkless) (spelled : v.Spelled)
    (level : ".." ∉ segments start) (walked : walkFrom v excludes depth start = .ok found) :
    ∃ list, Survey v excludes start list ∧ found = surveyed start list := by
  induction depth generalizing start found with
  | zero => cases walked
  | succ depth ih =>
    cases walkStep_of_walkFrom walked with
    | leftOut out =>
      refine ⟨[], ⟨fun names kind => ?_, fun _ => .nil⟩, rfl⟩
      exact iff_of_false List.not_mem_nil fun taken => out taken.start_passes
    | @leaf node passes here plain =>
      have there := kindAt_of_node (there_of_statPath linkless level here).1
      have noDir : node.kind ≠ .dir := by
        intro dir
        rw [← kind_beq_dir, dir] at plain
        cases plain
      refine ⟨_, survey_leaf passes there noDir, ?_⟩
      rw [surveyed, List.map_singleton, kind_beq_dir, plain]
      rfl
    | @dir entries lists passes here below =>
      have there := (there_of_statPath linkless level here).1
      obtain ⟨all, flat, member, sorted⟩ := exists_children below fun name listed found ran =>
        ih (level_childPath level ((mem_names spelled there).1 listed).1) ran
      refine ⟨_, survey_dir spelled passes there member
        fun ordered => sorted ordered (increasing_texts ordered spelled there), ?_⟩
      rw [flat]
      rfl

end ControlPlane.Transfer
