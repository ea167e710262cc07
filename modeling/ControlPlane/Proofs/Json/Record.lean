import ControlPlane.Json.Record
-- What is written as a record is read as one, whatever is done with leftovers, and what
-- an object holds that is read as one.
namespace ControlPlane.Json

theorem toInt?_ofInt (i : Int) : int? (.ofInt i) = some i := by
  unfold Value.ofInt int? Number.toInt?
  by_cases negative : i < 0
  · have magnitude : i.natAbs ≠ 0 := by omega
    simp only [negative, decide_true, Option.some.injEq]
    omega
  · simp only [negative, decide_false, Option.some.injEq]
    omega

theorem natBelow?_ofNat {bound n : Nat} (below : n < bound) :
    natBelow? bound (.ofNat n) = some n := by
  have read : int? (.ofNat n) = some (n : Int) := rfl
  have range : 0 ≤ (n : Int) ∧ (n : Int) < bound := by omega
  rw [natBelow?, read]
  simp only [Option.bind_eq_bind, Option.bind_some]
  rw [if_pos range, Int.toNat_natCast]

@[simp]
theorem text?_ofString (s : String) : text? (.ofString s) = some s := rfl

@[simp]
theorem texts?_ofStrings (texts : List String) : texts? (.ofStrings texts) = some texts := by
  have items : (texts.map Value.ofString).mapM text? = some texts := by
    induction texts with
    | nil => rfl
    | cons text texts ih => simp [ih]
  exact items

theorem namedMembers_record (fields : Fields) :
    namedMembers (fields.map fun m => (some m.1, m.2)) = some fields := by
  induction fields with
  | nil => rfl
  | cons m fields ih =>
    rw [namedMembers] at ih
    simp only [namedMembers, List.map_cons, List.mapM_cons, ih, Option.map_some]
    rfl

theorem textMap?_record (entries : List (String × String)) :
    textMap? (.record (entries.map fun e => (e.1, .ofString e.2))) = some entries := by
  have texts : (entries.map fun e => (e.1, Value.ofString e.2)).mapM
      (fun m => (text? m.2).map fun t => (m.1, t)) = some entries := by
    induction entries with
    | nil => rfl
    | cons e entries ih => simp [ih]
  simp only [Value.record, textMap?, namedMembers_record, Option.bind_eq_bind, Option.bind_some]
  exact texts

theorem readRecord_record (leftovers : Leftovers) (names written : List String) (fields : Fields)
    (same : fields.map (·.1) = written) (distinct : written.Nodup) (known : written ⊆ names) :
    readRecord leftovers names (.record fields) = some fields := by
  have all : fields.filter (fun m => names.contains m.1) = fields := by
    refine List.filter_eq_self.mpr fun m member => List.contains_iff_mem.mpr (known ?_)
    rw [← same]
    exact List.mem_map_of_mem member
  simp only [Value.record, readRecord, namedMembers_record, Option.bind_eq_bind, Option.bind_some,
    all, same, distinct, not_true, if_false, ne_eq, and_false]

theorem namedMembers_eq {members : List (Text × Value)} {named : Fields}
    (read : namedMembers members = some named) :
    members = named.map fun m => (some m.1, m.2) := by
  induction members generalizing named with
  | nil =>
    cases read
    rfl
  | cons m members ih =>
    obtain ⟨name, v⟩ := m
    cases name with
    | none => simp [namedMembers] at read
    | some name =>
      unfold namedMembers at read ih
      simp only [List.mapM_cons, Option.map_some, Option.bind_eq_bind, Option.bind_some,
        Option.bind_eq_some_iff, Option.pure_def, Option.some.injEq] at read
      obtain ⟨others, rest, rfl⟩ := read
      rw [ih rest]
      rfl

theorem readRecord_object {leftovers : Leftovers} {names : List String}
    {members : List (Text × Value)} {fields : Fields}
    (read : readRecord leftovers names (.object members) = some fields) :
    ∃ named : Fields, members = named.map (fun m => (some m.1, m.2)) ∧
      fields = named.filter (fun m => names.contains m.1) ∧ (fields.map (·.1)).Nodup ∧
      (leftovers.refuseMembers = true → fields.length = named.length) := by
  unfold readRecord at read
  obtain ⟨named, found, read⟩ := Option.bind_eq_some_iff.1 read
  dsimp only at read
  split at read
  · cases read
  · rename_i distinct
    split at read
    · cases read
    · rename_i refused
      cases read
      refine ⟨named, namedMembers_eq found, rfl, Decidable.not_not.1 distinct, ?_⟩
      intro strict
      apply Decidable.not_not.1
      exact fun differ => refused ⟨strict, differ⟩

theorem readRecord_strict {names : List String} {members : List (Text × Value)} {fields : Fields}
    (read : readRecord .strict names (.object members) = some fields) :
    (∀ m ∈ members, ∃ name ∈ names, m.1 = some name) ∧ (members.map (·.1)).Nodup := by
  obtain ⟨named, rfl, rfl, distinct, length⟩ := readRecord_object read
  have known := List.length_filter_eq_length_iff.1 (length rfl)
  rw [List.filter_eq_self.2 known] at distinct
  constructor
  · intro m member
    obtain ⟨field, old, rfl⟩ := List.mem_map.1 member
    exact ⟨field.1, List.contains_iff_mem.1 (known field old), rfl⟩
  · have names : (named.map fun m => (some m.1, m.2)).map (·.1) = (named.map (·.1)).map some := by
      rw [List.map_map, List.map_map]
      rfl
    rw [names, List.nodup_iff_pairwise_ne, List.pairwise_map]
    exact distinct.imp fun differ same => differ (Option.some.inj same)

theorem Fields.required_bind {α β : Type} {fields : Fields} {name : String} {v : Value}
    {read : Value → Option α} {a : α} (found : fields.lookup name = some v)
    (readable : read v = some a) (next : α → Option β) :
    (fields.required name read >>= next) = next a := by
  rw [required, found, Option.bind_some, readable, Option.bind_eq_bind, Option.bind_some]

theorem Fields.withDefault_bind {α β : Type} {fields : Fields} {name : String} {v : Value}
    {default : α} {read : Value → Option α} {a : α} (found : fields.lookup name = some v)
    (readable : read v = some a) (next : α → Option β) :
    (fields.withDefault name default read >>= next) = next a := by
  simp [withDefault, found, readable]

end ControlPlane.Json
