import ControlPlane.Proofs.Text.Segments
import ControlPlane.Proofs.Text.Utf8
import ControlPlane.Volume.Reach
-- The names that a directory can hold, and volumes that hold no others.
namespace ControlPlane

def isProperName (name : Name) : Bool :=
  !name.isEmpty && !name.contains 47 && name != dot && name != dotDot

mutual
def Node.isWellNamed : Node → Bool
  | .dir entries => wellNamedEntries entries
  | _ => true

def wellNamedEntries : List (Name × Node) → Bool
  | [] => true
  | (name, n) :: rest => isProperName name && n.isWellNamed && wellNamedEntries rest
end

def Volume.WellNamed (v : Volume) : Prop := v.topNode.isWellNamed = true

instance (v : Volume) : Decidable v.WellNamed := inferInstanceAs (Decidable (_ = true))

theorem wellNamed_of_mem {entries : Entries} {entry : Name × Node}
    (named : wellNamedEntries entries = true) (member : entry ∈ entries) :
    isProperName entry.1 = true ∧ entry.2.isWellNamed = true := by
  induction entries with
  | nil => cases member
  | cons head rest ih =>
    simp only [wellNamedEntries, Bool.and_eq_true] at named
    rcases List.mem_cons.1 member with rfl | later
    · exact named.1
    · exact ih named.2 later

theorem mem_of_lookup {entries : Entries} {name : Name} {node : Node}
    (found : entries.lookup name = some node) : (name, node) ∈ entries := by
  obtain ⟨before, after, same, _⟩ := List.lookup_eq_some_iff.1 found
  simp [same]

theorem Node.wellNamed_get? {n node : Node} {path : List Name} (named : n.isWellNamed = true)
    (found : n.get? path = some node) : node.isWellNamed = true := by
  induction path generalizing n with
  | nil =>
    cases found
    exact named
  | cons name path ih =>
    simp only [Node.get?, Option.bind_eq_some_iff] at found
    obtain ⟨child, here, below⟩ := found
    cases n with
    | file => cases here
    | link => cases here
    | dir entries => exact ih (wellNamed_of_mem named (mem_of_lookup here)).2 below

namespace Volume

variable {v : Volume} {steps place : List Name} {path : String} {node : Node}

theorem find_of_stat (found : v.stat steps = .ok node) :
    ∃ place, v.find steps = .ok place ∧ v.node? place = some node := by
  unfold stat at found
  cases at_ : v.find steps with
  | error f => simp [at_, bind, Except.bind] at found
  | ok place =>
    refine ⟨place, rfl, ?_⟩
    simp only [at_, bind, Except.bind] at found
    split at found
    · rename_i n here
      rw [here, Except.ok.inj found]
    · cases found

theorem stat_of_find (at_ : v.find steps = .ok place) (here : v.node? place = some node) :
    v.stat steps = .ok node := by
  simp [stat, at_, bind, Except.bind, here]

theorem stat_of_statPath (found : v.statPath path = .ok node) :
    ∃ steps, pathSteps path = .ok steps ∧ v.stat steps = .ok node := by
  unfold statPath at found
  cases read : pathSteps path with
  | error f =>
    rw [read] at found
    cases found
  | ok steps =>
    rw [read] at found
    exact ⟨steps, rfl, found⟩

theorem proper_of_statPath {entries : Entries} {entry : Name × Node} (named : v.WellNamed)
    (found : v.statPath path = .ok (.dir entries)) (member : entry ∈ entries) :
    isProperName entry.1 = true := by
  obtain ⟨steps, _, stat⟩ := stat_of_statPath found
  obtain ⟨place, _, here⟩ := find_of_stat stat
  have below := Node.wellNamed_get? named here
  exact (wellNamed_of_mem (by simpa [Node.isWellNamed] using below) member).1

end Volume

theorem bytesOf_of_lossyTextOf {name : Name} {text : String} (sound : '\uFFFD' ∉ text.toList)
    (same : lossyTextOf name = text) : bytesOf text = name := by
  have chars : Utf8.decodeLossy name = text.toList := by rw [← same, lossyTextOf]; simp
  rw [bytesOf, ← chars]
  exact Utf8.encode_decodeLossy (chars ▸ sound)

theorem lossyTextOf_clean {name : Name} (proper : isProperName name = true) :
    IsCleanName (lossyTextOf name) := by
  simp only [isProperName, Bool.and_eq_true, Bool.not_eq_true', bne_iff_ne, ne_eq,
    List.isEmpty_eq_false_iff, List.contains_eq_mem, decide_eq_false_iff_not] at proper
  obtain ⟨⟨⟨some, plain⟩, single⟩, stays⟩ := proper
  refine ⟨fun same => some (bytesOf_of_lossyTextOf (by decide) same).symm,
    fun same => single (bytesOf_of_lossyTextOf (by decide) same).symm,
    fun same => stays (bytesOf_of_lossyTextOf (by decide) same).symm, ?_⟩
  intro slash
  have inside := Utf8.infix_of_mem_decodeLossy (by simpa [lossyTextOf] using slash) (by decide)
  exact plain (inside.subset (by decide))

end ControlPlane
