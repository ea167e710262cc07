import ControlPlane.ExecOpts
import Mathlib.Data.List.Forall2
import Mathlib.Data.List.TakeWhile
-- What becomes of the environment entries of a command.
namespace ControlPlane

def entryOf (pair : String × String) : String := pair.1 ++ "=" ++ pair.2

theorem toList_entryOf (pair : String × String) :
    (entryOf pair).toList = pair.1.toList ++ '=' :: pair.2.toList := by
  simp [entryOf]

theorem entryOf_ofList (key value : List Char) :
    entryOf (String.ofList key, String.ofList value) = String.ofList (key ++ '=' :: value) := by
  apply String.toList_injective
  simp [toList_entryOf]

theorem splitEntry_entryOf {pair : String × String} (plain : '=' ∉ pair.1.toList) :
    splitEntry (entryOf pair) = some pair := by
  have before : ∀ c ∈ pair.1.toList, decide (c ≠ '=') = true := by
    intro c member
    exact decide_eq_true fun equals => plain (equals ▸ member)
  have key : (entryOf pair).toList.takeWhile (· ≠ '=') = pair.1.toList := by
    rw [toList_entryOf, List.takeWhile_append_of_pos before, List.takeWhile_cons_of_neg (by simp),
      List.append_nil]
  have value : (entryOf pair).toList.dropWhile (· ≠ '=') = '=' :: pair.2.toList := by
    rw [toList_entryOf, List.dropWhile_append_of_pos before, List.dropWhile_cons_of_neg (by simp)]
  simp only [splitEntry, key, value, String.ofList_toList]

theorem splitEntry_plain {entry : String} (plain : '=' ∉ entry.toList) :
    splitEntry entry = none := by
  have rest : entry.toList.dropWhile (· ≠ '=') = [] := by
    refine List.dropWhile_eq_nil_iff.2 fun c member => ?_
    exact decide_eq_true fun equals => plain (equals ▸ member)
  simp only [splitEntry, rest]

theorem exists_pair {entry : String} (equals : '=' ∈ entry.toList) :
    ∃ pair : String × String, '=' ∉ pair.1.toList ∧ entryOf pair = entry := by
  obtain ⟨key, value, whole, plain⟩ := List.eq_append_cons_of_mem equals
  refine ⟨(String.ofList key, String.ofList value), by simpa using plain, ?_⟩
  rw [entryOf_ofList, ← whole, String.ofList_toList]

theorem splitEntry_eq_some {entry : String} {pair : String × String} :
    splitEntry entry = some pair ↔ '=' ∉ pair.1.toList ∧ entryOf pair = entry := by
  constructor
  · intro split
    by_cases equals : '=' ∈ entry.toList
    · obtain ⟨other, plain, rfl⟩ := exists_pair equals
      rw [splitEntry_entryOf plain] at split
      cases split
      exact ⟨plain, rfl⟩
    · rw [splitEntry_plain equals] at split
      cases split
  · rintro ⟨plain, rfl⟩
    exact splitEntry_entryOf plain

namespace ExecOpts

def given (steps : List Step) : List (String × String) :=
  steps.filterMap fun
    | .env key value => some (key, value)
    | _ => none

structure ReadsAs (pair written : String × String) : Prop where
  plain : '=' ∉ pair.1.toList
  same : entryOf pair = entryOf written

theorem ReadsAs.split {pair written : String × String} (reads : ReadsAs pair written) :
    splitEntry (entryOf written) = some pair := by
  rw [← reads.same]
  exact splitEntry_entryOf reads.plain

theorem exists_readsAs (written : String × String) : ∃ pair, ReadsAs pair written := by
  have equals : '=' ∈ (entryOf written).toList := by simp [toList_entryOf]
  obtain ⟨pair, plain, same⟩ := exists_pair equals
  exact ⟨pair, plain, same⟩

theorem env_apply (opts : ExecOpts) (step : Step) :
    (opts.apply step).env = opts.env ++ (given [step]).map entryOf := by
  cases step with
  | env key value => rfl
  | arg | args | tag => simp [apply, given]

theorem env_applyAll (opts : ExecOpts) (steps : List Step) :
    (opts.applyAll steps).env = opts.env ++ (given steps).map entryOf := by
  induction steps generalizing opts with
  | nil => simp [applyAll, given]
  | cons step rest ih =>
    have both : given (step :: rest) = given [step] ++ given rest :=
      List.filterMap_append (l := [step])
    rw [both, List.map_append, ← List.append_assoc, ← env_apply]
    exact ih (opts.apply step)

theorem reads_entries (written : List (String × String)) :
    List.Forall₂ ReadsAs ((written.map entryOf).filterMap splitEntry) written := by
  induction written with
  | nil => exact .nil
  | cons first rest ih =>
    obtain ⟨pair, reads⟩ := exists_readsAs first
    rw [List.map_cons, List.filterMap_cons_some reads.split]
    exact .cons reads ih

theorem envPairs_applyAll (opts : ExecOpts) (steps : List Step) : (opts.applyAll steps).envPairs =
    opts.envPairs ++ ((given steps).map entryOf).filterMap splitEntry := by
  rw [envPairs, env_applyAll, List.filterMap_append]
  rfl

theorem ReadsAs.eq_iff {pair written : String × String} (reads : ReadsAs pair written) :
    pair = written ↔ '=' ∉ written.1.toList := by
  constructor
  · rintro rfl
    exact reads.plain
  · intro plain
    exact Option.some.inj (reads.split.symm.trans (splitEntry_entryOf plain))

theorem readsAs_eq_iff {pairs written : List (String × String)}
    (reads : List.Forall₂ ReadsAs pairs written) :
    pairs = written ↔ ∀ pair ∈ written, '=' ∉ pair.1.toList := by
  induction reads with
  | nil => simp
  | cons first _ ih => rw [List.cons.injEq, List.forall_mem_cons, first.eq_iff, ih]

theorem entryIsValid_iff {entry : String} : entryIsValid entry = true ↔
    ∃ pair : String × String, splitEntry entry = some pair ∧ pair.1 ≠ "" := by
  unfold entryIsValid
  split
  · rename_i key value split
    simp [split]
  · rename_i none
    simp [none]

theorem entries_valid {opts : ExecOpts} (valid : opts.check = .ok ()) :
    ∀ entry ∈ opts.env, entryIsValid entry = true := by
  unfold check at valid
  split at valid
  · cases valid
  · split at valid
    · cases valid
    · rename_i none
      simpa using none

theorem map_entryOf_split {entries : List String}
    (valid : ∀ entry ∈ entries, entryIsValid entry = true) :
    (entries.filterMap splitEntry).map entryOf = entries := by
  induction entries with
  | nil => rfl
  | cons entry rest ih =>
    obtain ⟨pair, split, _⟩ := entryIsValid_iff.1 (valid entry (by simp))
    have later := ih fun e member => valid e (by simp [member])
    rw [List.filterMap_cons_some split, List.map_cons, (splitEntry_eq_some.1 split).2, later]

theorem key_ne_empty {opts : ExecOpts} (valid : opts.check = .ok ()) :
    ∀ pair ∈ opts.envPairs, pair.1 ≠ "" := by
  intro pair member
  obtain ⟨entry, present, split⟩ := List.mem_filterMap.1 member
  obtain ⟨other, again, some⟩ := entryIsValid_iff.1 (entries_valid valid entry present)
  cases split.symm.trans again
  exact some

-- Every variable that is set is read again behind those that were there before, in order and
-- none of them left out. Its key is cut at the first equals sign, so it is read as it was set
-- exactly when there is none in its key. Of a valid command no entry is left out, no key is
-- empty, and each pair is its entry taken apart.
theorem envPairs_arrive (opts : ExecOpts) :
    (∀ steps, (∃ pairs, (opts.applyAll steps).envPairs = opts.envPairs ++ pairs ∧
        List.Forall₂ ReadsAs pairs (given steps)) ∧
      ((opts.applyAll steps).envPairs = opts.envPairs ++ given steps ↔
        ∀ pair ∈ given steps, '=' ∉ pair.1.toList)) ∧
    (opts.check = .ok () → opts.envPairs.map entryOf = opts.env ∧
      ∀ pair ∈ opts.envPairs, pair.1 ≠ "") := by
  refine ⟨fun steps => ?_, fun valid => ?_⟩
  · have reads := reads_entries (given steps)
    rw [envPairs_applyAll, List.append_cancel_left_eq]
    exact ⟨⟨_, rfl, reads⟩, readsAs_eq_iff reads⟩
  · exact ⟨map_entryOf_split (entries_valid valid), key_ne_empty valid⟩

def flags : ExecOpts :=
  (ofName "env").applyAll [.env "FLAGS" "a=b", .arg "-i", .env "EMPTY" ""]

theorem envPairs_arrive_flags : flags.check = .ok () ∧
    flags.envPairs = [("FLAGS", "a=b"), ("EMPTY", "")] ∧ flags.env = ["FLAGS=a=b", "EMPTY="] ∧
    flags.envPairs.map entryOf = flags.env ∧ ∀ pair ∈ flags.envPairs, pair.1 ≠ "" := by
  have valid : flags.check = .ok () := by decide +kernel
  have plain : ∀ pair ∈ [("FLAGS", "a=b"), ("EMPTY", "")], '=' ∉ pair.1.toList := by decide +kernel
  exact ⟨valid, ((envPairs_arrive (ofName "env")).1 _).2.2 plain, rfl,
    (envPairs_arrive flags).2 valid⟩

theorem key_cut_at_equals : ¬ ∀ steps, ((ofName "env").applyAll steps).check = .ok () →
    ((ofName "env").applyAll steps).envPairs = given steps := by
  intro always
  have cut := always [.env "A=B" "c"] (by decide +kernel)
  have pairs : ((ofName "env").applyAll [.env "A=B" "c"]).envPairs = [("A", "B=c")] := by
    decide +kernel
  rw [pairs] at cut
  exact absurd cut (by decide +kernel)

end ExecOpts

end ControlPlane
