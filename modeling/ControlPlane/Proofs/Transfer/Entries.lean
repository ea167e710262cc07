import ControlPlane.Proofs.Transfer.Walk
-- Where the entries of a plan come from: what its walks find, and the destinations that
-- this is given.
namespace ControlPlane.Transfer

def differing (head : TransferEntry) (rest : List TransferEntry) : List TransferEntry :=
  rest.filter fun b => (b.src == head.src && b.dest == head.dest) = false

theorem mem_differing {head entry : TransferEntry} {rest : List TransferEntry} :
    entry ∈ differing head rest ↔
      entry ∈ rest ∧ ¬ (entry.src = head.src ∧ entry.dest = head.dest) := by
  rw [differing, List.mem_filter, decide_eq_true_eq, ← Bool.not_eq_true, Bool.and_eq_true, beq_iff_eq,
    beq_iff_eq]

theorem withoutRepeats_cons (head : TransferEntry) (rest : List TransferEntry) :
    withoutRepeats (head :: rest) = head :: withoutRepeats (differing head rest) :=
  List.eraseDupsBy_cons

theorem repeats_induction {motive : List TransferEntry → Prop} (nil : motive [])
    (cons : ∀ head rest, motive (differing head rest) → motive (head :: rest))
    (entries : List TransferEntry) : motive entries := by
  match entries with
  | [] => exact nil
  | head :: rest => exact cons head rest (repeats_induction nil cons (differing head rest))
termination_by entries.length
decreasing_by
  have shorter : (differing head rest).length ≤ rest.length := List.length_filter_le ..
  simp only [List.length_cons]
  omega

theorem exists_of_mem_withoutRepeats {entries : List TransferEntry} {entry : TransferEntry}
    (member : entry ∈ entries) :
    ∃ first ∈ withoutRepeats entries, first.src = entry.src ∧ first.dest = entry.dest := by
  induction entries using repeats_induction with
  | nil => cases member
  | cons head rest ih =>
    rw [withoutRepeats_cons]
    by_cases same : entry.src = head.src ∧ entry.dest = head.dest
    · exact ⟨head, by simp, same.1.symm, same.2.symm⟩
    · have later : entry ∈ rest := by
        rcases List.mem_cons.1 member with rfl | later
        · exact absurd ⟨rfl, rfl⟩ same
        · exact later
      obtain ⟨first, present, equal⟩ := ih (mem_differing.2 ⟨later, same⟩)
      exact ⟨first, List.mem_cons_of_mem _ present, equal⟩

theorem mem_of_mem_withoutRepeats {entries : List TransferEntry} {entry : TransferEntry}
    (member : entry ∈ withoutRepeats entries) : entry ∈ entries := by
  induction entries using repeats_induction with
  | nil => exact member
  | cons head rest ih =>
    rw [withoutRepeats_cons] at member
    rcases List.mem_cons.1 member with rfl | later
    · simp
    · exact List.mem_cons_of_mem _ (mem_differing.1 (ih later)).1

theorem nodup_withoutRepeats (entries : List TransferEntry) :
    ((withoutRepeats entries).map fun e => (e.src, e.dest)).Nodup := by
  induction entries using repeats_induction with
  | nil => exact List.nodup_nil
  | cons head rest ih =>
    rw [withoutRepeats_cons, List.map_cons, List.nodup_cons]
    refine ⟨?_, ih⟩
    intro again
    obtain ⟨e, member, same⟩ := List.mem_map.1 again
    rw [Prod.mk.injEq] at same
    exact (mem_differing.1 (mem_of_mem_withoutRepeats member)).2 same

-- What every entry that was planned from a start is: something found there, which keeps
-- its path without a destination, and else gets a cleaned one.
structure Planned (v : Volume) (excludes : List Pattern) (start dest : String)
    (entry : TransferEntry) : Prop where
  below : Below v excludes start entry.src
  found : ∃ node, v.statPath entry.src = .ok node ∧ entry.isDir = node.isDir
  kept : dest = "" → entry.dest = entry.src
  cleaned : dest ≠ "" → ∃ a b, entry.dest = cleanJoin a b

variable {v : Volume} {excludes : List Pattern} {src dest start : String}
  {entries : List TransferEntry}

theorem mem_entriesFor {base : String} {found : List (String × Bool)} {entry : TransferEntry}
    (member : entry ∈ entriesFor dest base found) :
    (entry.src, entry.isDir) ∈ found ∧ entry.dest = destFor dest base entry.src ∧
      entry.dest ≠ "." := by
  obtain ⟨mapped, inner⟩ := List.mem_filter.1 member
  obtain ⟨f, present, rfl⟩ := List.mem_map.1 mapped
  exact ⟨present, rfl, by simpa using inner⟩

theorem planned_of_entriesFor {base : String} {found some : List (String × Bool)}
    (walked : walkFrom v excludes v.levels start = .ok found) (part : some ⊆ found) :
    ∀ entry ∈ entriesFor dest base some, Planned v excludes start dest entry := by
  intro entry member
  obtain ⟨present, dest_eq, _⟩ := mem_entriesFor member
  obtain ⟨below, node⟩ := below_of_walkFrom walked _ (part present)
  refine ⟨below, node, fun none => ?_, fun given => ?_⟩
  · rw [dest_eq, destFor, if_pos none]
  · exact ⟨dest, stripBase entry.src base, by rw [dest_eq, destFor, if_neg given]⟩

theorem planned_of_planMatch {found : String}
    (planned : planMatch v excludes dest found = .ok entries) :
    ∀ entry ∈ entries, Planned v excludes found dest entry := by
  obtain ⟨all, walked, rfl⟩ := walkFrom_of_map planned
  exact planned_of_entriesFor walked (List.Subset.refl _)

inductive Sourced (v : Volume) (excludes : List Pattern) (start dest : String) :
    List TransferEntry → Prop where
  | contents {found : List (String × Bool)}
      (walked : walkFrom v excludes v.levels start = .ok found) :
      Sourced v excludes start dest (entriesFor dest start (found.filter (·.1 ≠ start)))
  | directory {found : List (String × Bool)} {base : String} (inner : start ≠ ".")
      (walked : walkFrom v excludes v.levels start = .ok found)
      (base_eq : base = start ∨ base = parentOf start) :
      Sourced v excludes start dest (entriesFor dest base found)
  | file {node : Node} (inner : start ≠ ".") (here : v.statPath start = .ok node)
      (plain : node.isDir = false) : Sourced v excludes start dest (planFile excludes start dest)

theorem planPlain_ok (planned : planPlain v excludes src dest = .ok entries) :
    Sourced v excludes (trimSource src) dest entries := by
  unfold planPlain at planned
  dsimp only at planned
  split at planned
  · cases planned
  · cases planned
  · rename_i node here
    split at planned
    · obtain ⟨found, walked, rfl⟩ := walkFrom_of_map planned
      exact .contents walked
    · rename_i neither
      have inner : trimSource src ≠ "." := fun root => neither (.inr root)
      split at planned
      · obtain ⟨found, walked, rfl⟩ := walkFrom_of_map planned
        refine .directory inner walked ?_
        split
        · exact .inr rfl
        · exact .inl rfl
      · rename_i file
        cases planned
        exact .file inner here (Bool.eq_false_iff.2 file)

theorem mem_planFile {entry : TransferEntry} (member : entry ∈ planFile excludes start dest) :
    isExcluded excludes start = false ∧ entry = ⟨start, fileDest start dest, false⟩ := by
  unfold planFile at member
  split at member
  · cases member
  · rename_i passed
    exact ⟨Bool.eq_false_iff.2 passed, List.mem_singleton.1 (List.mem_filter.1 member).1⟩

theorem planned_of_planFile {node : Node} (here : v.statPath start = .ok node)
    (file : node.isDir = false) :
    ∀ entry ∈ planFile excludes start dest, Planned v excludes start dest entry := by
  intro entry member
  obtain ⟨passed, rfl⟩ := mem_planFile member
  refine ⟨.here (.inr passed), ⟨node, here, file.symm⟩, fun none => ?_, fun some => ?_⟩
  · simp [fileDest, none]
  · unfold fileDest
    rw [if_neg some]
    split
    · exact ⟨_, _, rfl⟩
    · exact ⟨_, _, rfl⟩

theorem Sourced.planned (sourced : Sourced v excludes start dest entries) :
    ∀ entry ∈ entries, Planned v excludes start dest entry := by
  cases sourced with
  | contents walked => exact planned_of_entriesFor walked (List.filter_subset_self _)
  | directory _ walked _ => exact planned_of_entriesFor walked (List.Subset.refl _)
  | file _ here plain => exact planned_of_planFile here plain

theorem found_of_planPlain (planned : planPlain v excludes src dest = .ok entries) :
    ∃ node, v.statPath (trimSource src) = .ok node := by
  unfold planPlain at planned
  dsimp only at planned
  split at planned
  · cases planned
  · cases planned
  · rename_i node here
    exact ⟨node, here⟩

theorem planned_of_planPlain (planned : planPlain v excludes src dest = .ok entries) :
    ∀ entry ∈ entries, Planned v excludes (trimSource src) dest entry :=
  (planPlain_ok planned).planned

theorem planGlob_ok (planned : planGlob v excludes src dest = .ok entries) :
    ∃ glob plans, Glob.read src = .ok glob ∧
      (glob.matchesOf v).mapM (planMatch v excludes dest) = .ok plans ∧
        entries = withoutRepeats plans.flatten := by
  unfold planGlob at planned
  split at planned
  · cases planned
  · rename_i glob read
    split at planned
    · cases planned
    · cases ran : (glob.matchesOf v).mapM (planMatch v excludes dest) with
      | error e => simp [ran, Except.map] at planned
      | ok plans =>
        simp only [ran, Except.map, Except.ok.injEq] at planned
        exact ⟨glob, plans, read, ran, planned.symm⟩

theorem plan_ok {opts : TransferOpts} (planned : plan v src opts = .ok entries) :
    opts.check src = .ok () ∧ ∃ excludes, readExcludes opts.excludes = .ok excludes ∧
      ((isWild src = true ∧ planGlob v excludes src opts.dest = .ok entries) ∨
        (isWild src = false ∧ planPlain v excludes src opts.dest = .ok entries)) := by
  unfold plan at planned
  split at planned
  · cases planned
  · rename_i valid
    split at planned
    · cases planned
    · rename_i excludes read
      refine ⟨valid, excludes, read, ?_⟩
      split at planned
      · exact .inl ⟨‹_›, planned⟩
      · rename_i plain
        exact .inr ⟨Bool.eq_false_iff.2 plain, planned⟩

end ControlPlane.Transfer
