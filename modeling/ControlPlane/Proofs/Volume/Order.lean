import ControlPlane.Proofs.Volume.Names
import ControlPlane.Volume.Edit
-- Volumes whose directories hold their entries in order, as they do after every change.
namespace ControlPlane

mutual
def Node.isOrdered : Node → Bool
  | .dir entries => orderedEntries entries
  | _ => true

def orderedEntries : List (Name × Node) → Bool
  | [] => true
  | (name, n) :: rest =>
    rest.all (fun e => name < e.1) && n.isOrdered && orderedEntries rest
end

def Volume.Ordered (v : Volume) : Prop := v.topNode.isOrdered = true

instance (v : Volume) : Decidable v.Ordered := inferInstanceAs (Decidable (_ = true))

namespace Node

variable {entries others : Entries} {name : Name} {child n node : Node}

theorem ordered_cons : orderedEntries ((name, node) :: entries) = true ↔
    (∀ entry ∈ entries, name < entry.1) ∧ node.isOrdered = true ∧
      orderedEntries entries = true := by
  simp only [orderedEntries, Bool.and_eq_true, List.all_eq_true, decide_eq_true_eq, and_assoc]

theorem ordered_of_mem (ordered : orderedEntries entries = true) {entry : Name × Node}
    (member : entry ∈ entries) : entry.2.isOrdered = true := by
  induction entries with
  | nil => cases member
  | cons head rest ih =>
    obtain ⟨_, held, later⟩ := ordered_cons.1 ordered
    rcases List.mem_cons.1 member with rfl | behind
    · exact held
    · exact ih later behind

theorem ordered_get? {path : List Name} (ordered : n.isOrdered = true)
    (found : n.get? path = some node) : node.isOrdered = true := by
  induction path generalizing n with
  | nil =>
    cases found
    exact ordered
  | cons name path ih =>
    obtain ⟨child, held, below⟩ := Option.bind_eq_some_iff.1 found
    cases n with
    | file content => cases held
    | link target => cases held
    | dir entries => exact ih (ordered_of_mem ordered (mem_of_lookup held)) below

theorem increasing_names (ordered : orderedEntries entries = true) :
    (entries.map Prod.fst).Pairwise (· < ·) := by
  induction entries with
  | nil => exact .nil
  | cons entry rest ih =>
    obtain ⟨above, _, later⟩ := ordered_cons.1 ordered
    refine List.pairwise_cons.2 ⟨fun name member => ?_, ih later⟩
    obtain ⟨other, inside, rfl⟩ := List.mem_map.1 member
    exact above other inside

theorem mem_insertEntry {entry : Name × Node} (member : entry ∈ insertEntry name node entries) :
    entry = (name, node) ∨ entry ∈ entries := by
  induction entries with
  | nil => exact .inl (List.mem_singleton.1 member)
  | cons first rest ih =>
    obtain ⟨other, old⟩ := first
    unfold insertEntry at member
    split at member
    · exact List.mem_cons.1 member
    · split at member
      · exact (List.mem_cons.1 member).imp_right (List.mem_cons_of_mem _)
      · rcases List.mem_cons.1 member with here | later
        · exact .inr (here ▸ List.mem_cons_self)
        · exact (ih later).imp_right (List.mem_cons_of_mem _)

theorem ordered_insertEntry (ordered : orderedEntries entries = true)
    (inner : node.isOrdered = true) : orderedEntries (insertEntry name node entries) = true := by
  induction entries with
  | nil => exact ordered_cons.2 ⟨by simp, inner, rfl⟩
  | cons first rest ih =>
    obtain ⟨other, old⟩ := first
    obtain ⟨above, held, later⟩ := ordered_cons.1 ordered
    unfold insertEntry
    split
    · rename_i less
      refine ordered_cons.2 ⟨List.forall_mem_cons.2 ⟨less, fun entry member => ?_⟩, inner, ordered⟩
      exact List.lt_trans less (above entry member)
    · rename_i notLess
      split
      · rename_i same
        exact ordered_cons.2 ⟨same ▸ above, inner, later⟩
      · rename_i differ
        have less : other < name := Std.lt_of_le_of_ne (List.not_lt.1 notLess) differ
        refine ordered_cons.2 ⟨fun entry member => ?_, held, ih later⟩
        rcases mem_insertEntry member with rfl | old
        · exact less
        · exact above entry old

theorem ordered_entries (ordered : n.isOrdered = true) : orderedEntries n.entries = true := by
  cases n with
  | dir entries => exact ordered
  | file content => rfl
  | link target => rfl

theorem ordered_put {path : List Name} (ordered : n.isOrdered = true)
    (inner : node.isOrdered = true) : (n.put path node).isOrdered = true := by
  induction path generalizing n with
  | nil => exact inner
  | cons name path ih =>
    have held := ordered_entries ordered
    apply ordered_insertEntry held
    apply ih
    cases found : n.child? name with
    | none => rfl
    | some child => exact ordered_of_mem held (mem_of_lookup found)

theorem ordered_filter (ordered : orderedEntries entries = true) (keeps : Name × Node → Bool) :
    orderedEntries (entries.filter keeps) = true := by
  induction entries with
  | nil => rfl
  | cons entry rest ih =>
    obtain ⟨above, inner, later⟩ := ordered_cons.1 ordered
    rw [List.filter_cons]
    split
    · refine ordered_cons.2 ⟨fun other member => ?_, inner, ih later⟩
      exact above other (List.mem_filter.1 member).1
    · exact ih later

theorem ordered_erase {path : List Name} (ordered : n.isOrdered = true) :
    (n.erase path).isOrdered = true := by
  fun_induction erase n path with
  | case1 n => exact ordered
  | case2 n name => exact ordered_filter (ordered_entries ordered) _
  | case3 n name path _ child held ih =>
    have entries := ordered_entries ordered
    exact ordered_insertEntry entries (ih (ordered_of_mem entries (mem_of_lookup held)))
  | case4 n => exact ordered

end Node

namespace Volume

variable {v : Volume} {node : Node}

namespace Ordered

theorem put (ordered : v.Ordered) (inner : node.isOrdered = true) (place : List Name) :
    (v.put place node).Ordered :=
  Node.ordered_entries (Node.ordered_put ordered inner)

theorem erase (ordered : v.Ordered) (place : List Name) : (v.erase place).Ordered :=
  Node.ordered_entries (Node.ordered_erase ordered)

theorem stat {steps : List Name} (ordered : v.Ordered) (found : v.stat steps = .ok node) :
    node.isOrdered = true := by
  obtain ⟨place, _, there⟩ := find_of_stat found
  exact Node.ordered_get? ordered there

theorem makeDir {w : Volume} {steps : List Name} (ordered : v.Ordered)
    (ran : v.makeDir steps = .ok w) : w.Ordered := by
  unfold Volume.makeDir at ran
  split at ran
  · split at ran <;> cases ran
    exact ordered
  · split at ran
    · cases ran
    split at ran
    · split at ran
      · cases ran
        exact ordered
      split at ran
      · cases ran
      split at ran
      · cases ran
        exact ordered.put rfl _
      · split at ran <;> cases ran
        exact ordered
    · cases ran
    · cases ran

theorem makeDirsFrom (ordered : v.Ordered) (done steps : List Name) :
    (v.makeDirsFrom done steps).2.Ordered := by
  induction steps generalizing v done with
  | nil => exact ordered
  | cons step steps ih =>
    unfold Volume.makeDirsFrom
    split
    · exact ordered
    · rename_i next made
      exact ih (ordered.makeDir made) _

theorem makeRoot (ordered : v.Ordered) : v.makeRoot.Ordered := by
  unfold Volume.makeRoot
  split
  · exact ordered
  · exact ordered.put rfl _

theorem makeDirs (ordered : v.Ordered) (steps : List Name) : (v.makeDirs steps).2.Ordered := by
  unfold Volume.makeDirs
  dsimp only
  split
  · split
    · rename_i next made
      have kept := ordered.makeRoot.makeDirsFrom [] (steps.filter (· ≠ dot)).dropLast
      rwa [made] at kept
    · exact ordered.makeRoot.makeDirsFrom _ _
  · exact ordered.makeRoot.makeDirsFrom _ _

theorem writeFile {w : Volume} {steps : List Name} {content : File} (ordered : v.Ordered)
    (ran : v.writeFile steps content = .ok w) : w.Ordered := by
  unfold Volume.writeFile at ran
  split at ran
  · cases ran
  · cases ran
    exact ordered.put rfl _
  · split at ran
    · split at ran <;> cases ran
      exact ordered.put rfl _
    · cases ran
    · cases ran

end Ordered

end Volume

end ControlPlane
