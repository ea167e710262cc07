import ControlPlane.Proofs.Volume.Names
-- Volumes as maps from places to kinds of nodes: what is put somewhere changes that place
-- and no other.
namespace ControlPlane

inductive Kind where
  | file (content : File)
  | link
  | dir
deriving DecidableEq

namespace Node

def kind : Node → Kind
  | .file content => .file content
  | .link _ => .link
  | .dir _ => .dir

theorem kind_eq_file {n : Node} {content : File} :
    n.kind = .file content ↔ n = .file content := by
  cases n <;> simp [kind]

theorem kind_eq_dir {n : Node} : n.kind = .dir ↔ ∃ entries, n = .dir entries := by
  cases n <;> simp [kind]

def kindAt (n : Node) (path : List Name) : Option Kind := (n.get? path).map kind

theorem lookup_insertEntry {name other : Name} {node : Node} {entries : Entries} :
    (insertEntry name node entries).lookup other =
      if other = name then some node else entries.lookup other := by
  induction entries with
  | nil =>
    by_cases same : other = name
    · simp [insertEntry, same]
    · simp [insertEntry, same, List.lookup_cons, beq_false_of_ne same]
  | cons entry rest ih =>
    obtain ⟨n, old⟩ := entry
    unfold insertEntry
    split
    · by_cases same : other = name
      · simp [same]
      · simp [same, List.lookup_cons, beq_false_of_ne same]
    · split
      · rename_i here
        by_cases same : other = name
        · simp [same]
        · simp [same, here, List.lookup_cons, beq_false_of_ne same]
      · rename_i away
        by_cases first : other = n
        · have later : other ≠ name := fun same => away (first ▸ same)
          simp [first, first ▸ later]
        · simp [List.lookup_cons, beq_false_of_ne first, ih]

theorem get?_append (n : Node) (front back : List Name) :
    n.get? (front ++ back) = (n.get? front).bind (·.get? back) := by
  induction front generalizing n with
  | nil => rfl
  | cons name front ih =>
    simp only [List.cons_append, get?]
    cases n.child? name with
    | none => rfl
    | some child => exact ih child

theorem kindAt_above {n : Node} {path below : List Name} (inner : below ≠ [])
    (there : n.kindAt (path ++ below) ≠ none) : n.kindAt path = some .dir := by
  obtain ⟨name, rest, rfl⟩ := List.exists_cons_of_ne_nil inner
  rw [kindAt, get?_append] at there
  rw [kindAt]
  cases here : n.get? path with
  | none => simp [here] at there
  | some node =>
    cases node with
    | dir entries => rfl
    | file content => simp [here, get?, child?, entries] at there
    | link target => simp [here, get?, child?, entries] at there

theorem kindAt_top {n : Node} {path : List Name} (there : n.kindAt path = some .dir) :
    n.kindAt [] = some .dir := by
  cases path with
  | nil => exact there
  | cons name path =>
    have inside : n.kindAt ([] ++ name :: path) ≠ none := by
      rw [List.nil_append, there]
      simp
    exact kindAt_above (by simp) inside

theorem kindAt_bare {n : Node} (bare : n.entries = []) (path : List Name) :
    n.kindAt path = if path = [] then some n.kind else none := by
  cases path with
  | nil => rfl
  | cons name rest => simp [kindAt, get?, child?, bare]

theorem kindAt_below_leaf {n : Node} {path : List Name} (leaf : n.kindAt [] ≠ some .dir)
    (inner : path ≠ []) : n.kindAt path = none := by
  apply Classical.byContradiction
  intro there
  have below : n.kindAt ([] ++ path) ≠ none := there
  exact leaf (kindAt_above inner below)

theorem kindAt_cons (n : Node) (name : Name) (path : List Name) :
    n.kindAt (name :: path) = (n.child? name).bind (·.kindAt path) := by
  simp only [kindAt, get?]
  cases n.child? name <;> rfl

theorem mem_descendantsOfEntries {entries : Entries} {name : Name} {child : Node}
    (member : (name, child) ∈ entries) :
    ([name], child) ∈ descendantsOfEntries entries ∧
      ∀ d ∈ child.descendants, (name :: d.1, d.2) ∈ descendantsOfEntries entries := by
  induction entries with
  | nil => cases member
  | cons entry rest ih =>
    obtain ⟨n, m⟩ := entry
    rw [descendantsOfEntries]
    rcases List.mem_cons.1 member with here | later
    · cases here
      refine ⟨by simp, fun d inside => List.mem_cons_of_mem _ (List.mem_append_left _ ?_)⟩
      exact List.mem_map.2 ⟨d, inside, rfl⟩
    · obtain ⟨first, below⟩ := ih later
      exact ⟨List.mem_cons_of_mem _ (List.mem_append_right _ first), fun d inside =>
        List.mem_cons_of_mem _ (List.mem_append_right _ (below d inside))⟩

theorem mem_descendants {n found : Node} {path : List Name} (inner : path ≠ [])
    (there : n.get? path = some found) : (path, found) ∈ n.descendants := by
  induction path generalizing n with
  | nil => exact absurd rfl inner
  | cons name path ih =>
    obtain ⟨child, held, below⟩ := Option.bind_eq_some_iff.1 there
    cases n with
    | file content => cases held
    | link target => cases held
    | dir entries =>
      obtain ⟨first, inside⟩ := mem_descendantsOfEntries (mem_of_lookup held)
      cases path with
      | nil =>
        cases below
        exact first
      | cons next path => exact inside _ (ih (by simp) below)

-- A node without entries, put into a directory at a place where no directory is, changes
-- that place and no other.
theorem kindAt_put {n new : Node} {path other : List Name} (bare : new.entries = [])
    (above : path ≠ [] → n.kindAt path.dropLast = some .dir) (leaf : n.kindAt path ≠ some .dir) :
    (n.put path new).kindAt other = if other = path then some new.kind else n.kindAt other := by
  induction path generalizing n other with
  | nil =>
    rw [put, kindAt_bare bare]
    split
    · rfl
    · rename_i inner
      rw [kindAt_below_leaf leaf inner]
  | cons name path ih =>
    cases other with
    | nil =>
      have dir := kindAt_top (above (by simp))
      rw [if_neg (by simp), dir]
      rfl
    | cons o others =>
      rw [kindAt_cons, put, child?, entries, lookup_insertEntry]
      by_cases same : o = name
      · subst same
        rw [if_pos rfl, Option.bind_some]
        cases child : n.child? o with
        | some c =>
          have inside : ∀ place, c.kindAt place = n.kindAt (o :: place) := by
            intro place
            rw [kindAt_cons, child, Option.bind_some]
          rw [Option.getD_some, ih ?_ (by rw [inside]; exact leaf), inside]
          · simp
          · intro deeper
            rw [inside, ← above (by simp), List.dropLast_cons_of_ne_nil deeper]
        | none =>
          have nothing : ∀ place, n.kindAt (o :: place) = none := by
            intro place
            rw [kindAt_cons, child, Option.bind_none]
          have last : path = [] := by
            apply Classical.byContradiction
            intro deeper
            have here := above (by simp)
            rw [List.dropLast_cons_of_ne_nil deeper, nothing] at here
            cases here
          subst last
          rw [nothing, put, kindAt_bare bare]
          simp
      · rw [if_neg same, kindAt_cons, child?]
        simp [same]

end Node

namespace Volume

def kindAt (v : Volume) (place : List Name) : Option Kind := v.topNode.kindAt place

def LinkFree (v : Volume) : Prop := ∀ place, v.kindAt place ≠ some .link

theorem kindAt_eq_some {v : Volume} {place : List Name} {kind : Kind} :
    v.kindAt place = some kind ↔ ∃ node, v.node? place = some node ∧ node.kind = kind :=
  Option.map_eq_some_iff

theorem kindAt_of_node {v : Volume} {place : List Name} {node : Node}
    (here : v.node? place = some node) : v.kindAt place = some node.kind :=
  kindAt_eq_some.2 ⟨node, here, rfl⟩

theorem kindAt_eq_file {v : Volume} {place : List Name} {content : File} :
    v.kindAt place = some (.file content) ↔ v.node? place = some (.file content) := by
  simp only [kindAt_eq_some, Node.kind_eq_file, exists_eq_right]

theorem kindAt_child {v : Volume} {place : List Name} {entries : Entries}
    (here : v.node? place = some (.dir entries)) (name : Name) :
    v.kindAt (place ++ [name]) = (entries.lookup name).map Node.kind := by
  have top : v.topNode.get? place = some (.dir entries) := here
  rw [kindAt, Node.kindAt, Node.get?_append, top]
  simp only [Option.bind_some, Node.get?, Node.child?, Node.entries]
  cases entries.lookup name <;> rfl

theorem kindAt_root (v : Volume) : v.kindAt [] = some .dir := rfl

theorem linkFree_of_descendants {v : Volume}
    (none : ∀ d ∈ v.topNode.descendants, d.2.kind ≠ .link) : v.LinkFree := by
  intro place link
  obtain ⟨node, here, kind⟩ := kindAt_eq_some.1 link
  by_cases top : place = []
  · subst top
    cases here
    cases kind
  · exact none _ (Node.mem_descendants top here) kind

theorem kindAt_dropLast {v : Volume} {place : List Name} (there : v.kindAt place ≠ none) :
    v.kindAt place.dropLast = some .dir := by
  rcases List.eq_nil_or_concat place with rfl | ⟨front, name, rfl⟩
  · rfl
  · rw [List.concat_eq_append] at there ⊢
    rw [List.dropLast_concat]
    exact Node.kindAt_above (by simp) there

theorem kindAt_put {v : Volume} {new : Node} {place other : List Name} (bare : new.entries = [])
    (above : v.kindAt place.dropLast = some .dir) (leaf : v.kindAt place ≠ some .dir) :
    (v.put place new).kindAt other =
      if other = place then some new.kind else v.kindAt other := by
  cases place with
  | nil => exact absurd v.kindAt_root leaf
  | cons name rest => exact Node.kindAt_put bare (fun _ => above) leaf

theorem entries_of_dir {v : Volume} {place : List Name} (dir : v.kindAt place = some .dir) :
    ∃ entries, v.node? place = some (.dir entries) ∧
      ∀ name, v.kindAt (place ++ [name]) = (entries.lookup name).map Node.kind := by
  obtain ⟨node, here, kind⟩ := kindAt_eq_some.1 dir
  obtain ⟨entries, rfl⟩ := Node.kind_eq_dir.1 kind
  exact ⟨entries, here, kindAt_child here⟩

end Volume

end ControlPlane
