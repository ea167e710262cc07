import ControlPlane.Proofs.Text.Order
import ControlPlane.Proofs.Volume.Names
import ControlPlane.Transfer.Plan
import Mathlib.Data.List.Forall2
-- What a walk finds: the path it starts from and, where that is a directory, what the
-- walks from its entries find.
namespace ControlPlane.Transfer

section Traversal

variable {α β ε : Type} {f : α → Except ε β} {l : List α} {made : List β}

theorem mapM_eq_ok : l.mapM f = .ok made ↔ List.Forall₂ (fun a b => f a = .ok b) l made := by
  induction l generalizing made with
  | nil =>
    rw [List.mapM_nil, List.forall₂_nil_left_iff]
    exact ⟨fun ran => (Except.ok.inj ran).symm, fun same => same ▸ rfl⟩
  | cons a l ih =>
    rw [List.mapM_cons, List.forall₂_cons_left_iff]
    cases first : f a with
    | error e => simp [bind, Except.bind]
    | ok b =>
      cases others : l.mapM f with
      | error e => simp [bind, Except.bind, ← ih, others]
      | ok rest =>
        simp only [bind, Except.bind, pure, Except.pure, Except.ok.injEq, ← ih, others]
        exact ⟨fun same => ⟨b, rest, rfl, rfl, same.symm⟩,
          fun ⟨_, _, head, tail, same⟩ => by rw [same, head, tail]⟩

theorem exists_of_mem_mapM (ran : l.mapM f = .ok made) {b : β} (member : b ∈ made) :
    ∃ a ∈ l, f a = .ok b := by
  have pairs := mapM_eq_ok.1 ran
  clear ran
  induction pairs with
  | nil => cases member
  | cons first _ ih =>
    rcases List.mem_cons.1 member with rfl | later
    · exact ⟨_, by simp, first⟩
    · obtain ⟨a, present, same⟩ := ih later
      exact ⟨a, by simp [present], same⟩

theorem mem_mapM_of_mem (ran : l.mapM f = .ok made) {a : α} (member : a ∈ l) :
    ∃ b ∈ made, f a = .ok b := by
  have pairs := mapM_eq_ok.1 ran
  clear ran
  induction pairs with
  | nil => cases member
  | cons first _ ih =>
    rcases List.mem_cons.1 member with rfl | later
    · exact ⟨_, by simp, first⟩
    · obtain ⟨b, present, same⟩ := ih later
      exact ⟨b, by simp [present], same⟩

theorem exists_mapM (all : ∀ a ∈ l, ∃ b, f a = .ok b) : ∃ made, l.mapM f = .ok made := by
  simp only [mapM_eq_ok]
  induction l with
  | nil => exact ⟨[], .nil⟩
  | cons a l ih =>
    obtain ⟨b, first⟩ := all a (by simp)
    obtain ⟨made, rest⟩ := ih fun c member => all c (by simp [member])
    exact ⟨b :: made, .cons first rest⟩

theorem mapM_congr {g : α → Except ε β} (same : ∀ a ∈ l, g a = f a) : l.mapM g = l.mapM f := by
  induction l with
  | nil => rfl
  | cons a l ih =>
    rw [List.mapM_cons, List.mapM_cons, same a (by simp), ih fun b later => same b (by simp [later])]

end Traversal

variable {v : Volume} {excludes : List Pattern} {path : String} {found : List (String × Bool)}

-- What a walk takes in: the root of a volume, and what no exclude matches.
def Passes (excludes : List Pattern) (path : String) : Prop :=
  path = "." ∨ isExcluded excludes path = false

-- The paths that a walk may come to: its start, and from a directory its entries, unless
-- they are left out.
inductive Below (v : Volume) (excludes : List Pattern) (start : String) : String → Prop where
  | here (passes : Passes excludes start) : Below v excludes start start
  | entry {path : String} {entries : Entries} {e : Name × Node}
      (above : Below v excludes start path) (dir : v.statPath path = .ok (.dir entries))
      (member : e ∈ entries) (passes : Passes excludes (childPath path (lossyTextOf e.1))) :
      Below v excludes start (childPath path (lossyTextOf e.1))

theorem Below.start_passes {start : String} (below : Below v excludes start path) :
    Passes excludes start := by
  induction below with
  | here passes => exact passes
  | entry _ _ _ _ ih => exact ih

theorem Below.trans {start path deep : String} (one : Below v excludes start path)
    (two : Below v excludes path deep) : Below v excludes start deep := by
  induction two with
  | here => exact one
  | entry _ dir member passes ih => exact .entry ih dir member passes

inductive WalkStep (v : Volume) (excludes : List Pattern) (depth : Nat) (path : String) :
    List (String × Bool) → Prop where
  | leftOut (out : ¬ Passes excludes path) : WalkStep v excludes depth path []
  | dir {entries : Entries} {lists : List (List (String × Bool))} (passes : Passes excludes path)
      (here : v.statPath path = .ok (.dir entries))
      (below : (sortTexts (entries.map fun e => lossyTextOf e.1)).mapM
        (fun name => walkFrom v excludes depth (childPath path name)) = .ok lists) :
      WalkStep v excludes depth path ((path, true) :: lists.flatten)
  | leaf {node : Node} (passes : Passes excludes path) (here : v.statPath path = .ok node)
      (plain : node.isDir = false) : WalkStep v excludes depth path [(path, false)]

theorem walkStep_of_walkFrom {depth : Nat}
    (walked : walkFrom v excludes (depth + 1) path = .ok found) :
    WalkStep v excludes depth path found := by
  unfold walkFrom at walked
  split at walked
  · rename_i matched
    cases walked
    refine .leftOut fun passes => ?_
    rw [passes.resolve_left matched.1] at matched
    cases matched.2
  · rename_i passed
    have passes : Passes excludes path := by
      by_cases root : path = "."
      · exact .inl root
      · exact .inr (Bool.eq_false_iff.2 fun matched => passed ⟨root, matched⟩)
    split at walked
    · cases walked
    · rename_i entries here
      dsimp only at walked
      cases below : (sortTexts (entries.map fun e => lossyTextOf e.1)).mapM
          fun name => walkFrom v excludes depth (childPath path name) with
      | error f => simp [below, Except.map] at walked
      | ok lists =>
        simp only [below, Except.map, Except.ok.injEq] at walked
        subst walked
        exact .dir passes here below
    · rename_i node other here
      cases walked
      cases node with
      | dir entries => exact absurd rfl (other entries)
      | file content => exact .leaf passes here rfl
      | link target => exact .leaf passes here rfl

theorem walkFrom_of_walkStep {depth : Nat} (step : WalkStep v excludes depth path found) :
    walkFrom v excludes (depth + 1) path = .ok found := by
  have passing (passes : Passes excludes path) :
      ¬ (path ≠ "." ∧ isExcluded excludes path = true) := by
    intro out
    rw [passes.resolve_left out.1] at out
    cases out.2
  unfold walkFrom
  cases step with
  | leftOut out =>
    rw [Passes, not_or, Bool.not_eq_false] at out
    rw [if_pos out]
  | dir passes here below =>
    rw [if_neg (passing passes), here]
    dsimp only
    rw [below]
    rfl
  | @leaf node passes here plain =>
    rw [if_neg (passing passes), here]
    cases node with
    | dir entries => cases plain
    | file content => rfl
    | link target => rfl

theorem exists_levels (v : Volume) : ∃ depth, v.levels = depth + 1 :=
  Nat.exists_eq_succ_of_ne_zero (by simp [Volume.levels, Volume.linkLimit])

theorem below_of_walkFrom {depth : Nat} (walked : walkFrom v excludes depth path = .ok found) :
    ∀ f ∈ found, Below v excludes path f.1 ∧
      ∃ node, v.statPath f.1 = .ok node ∧ f.2 = node.isDir := by
  induction depth generalizing path found with
  | zero => cases walked
  | succ depth ih =>
    intro f member
    cases walkStep_of_walkFrom walked with
    | leftOut => cases member
    | leaf passes here plain =>
      cases List.mem_singleton.1 member
      exact ⟨.here passes, _, here, plain.symm⟩
    | dir passes here below =>
      rcases List.mem_cons.1 member with rfl | deeper
      · exact ⟨.here passes, _, here, rfl⟩
      · obtain ⟨list, present, inside⟩ := List.mem_flatten.1 deeper
        obtain ⟨name, listed, ran⟩ := exists_of_mem_mapM below present
        obtain ⟨entry, held, rfl⟩ := List.mem_map.1 (mem_sortTexts.1 listed)
        obtain ⟨reached, node⟩ := ih ran f inside
        exact ⟨(Below.entry (.here passes) here held reached.start_passes).trans reached, node⟩

def descend (start : String) (names : List String) : String := names.foldl childPath start

theorem descend_concat (start : String) (names : List String) (name : String) :
    descend start (names ++ [name]) = childPath (descend start names) name := by
  simp [descend]

theorem descend_appends (parts : String → List String)
    (one : ∀ path name, IsCleanName name → parts (childPath path name) = parts path ++ [name])
    (start : String) {names : List String} (clean : ∀ name ∈ names, IsCleanName name) :
    parts (descend start names) = parts start ++ names := by
  induction names generalizing start with
  | nil => simp [descend]
  | cons name rest ih =>
    have later := ih (childPath start name) fun n member => clean n (by simp [member])
    rw [one start name (clean name (by simp)), List.append_assoc] at later
    exact later

theorem Below.descends {start : String} (named : v.WellNamed)
    (below : Below v excludes start path) :
    ∃ names, path = descend start names ∧ (∀ name ∈ names, IsCleanName name) ∧
      ∀ front, front <+: names → Passes excludes (descend start front) := by
  induction below with
  | here passes =>
    refine ⟨[], rfl, by simp, fun front part => ?_⟩
    cases List.prefix_nil.1 part
    exact passes
  | @entry path entries e above dir member passes ih =>
    obtain ⟨names, rfl, clean, all⟩ := ih
    have last := lossyTextOf_clean (v.proper_of_statPath named dir member)
    refine ⟨names ++ [lossyTextOf e.1], (descend_concat ..).symm, fun name present => ?_,
      fun front part => ?_⟩
    · rcases List.mem_append.1 present with old | new
      · exact clean name old
      · cases List.mem_singleton.1 new
        exact last
    · rcases List.prefix_concat_iff.1 part with rfl | shorter
      · rw [descend_concat]
        exact passes
      · exact all front shorter

theorem walkFrom_of_map {α : Type} {use : List (String × Bool) → α} {made : α}
    (ran : (walk v excludes path).map use = .ok made) :
    ∃ found, walkFrom v excludes v.levels path = .ok found ∧ made = use found := by
  unfold walk at ran
  cases walked : walkFrom v excludes v.levels path with
  | error f => simp [walked, Except.map, Except.mapError] at ran
  | ok found =>
    simp only [walked, Except.map, Except.mapError, Except.ok.injEq] at ran
    exact ⟨found, rfl, ran.symm⟩

end ControlPlane.Transfer
