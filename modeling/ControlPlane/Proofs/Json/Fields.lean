import ControlPlane.Proofs.Json.Record
import ControlPlane.Proofs.Metadata
import Mathlib.Data.List.Nodup
-- What a record holds under the names of its fields, whichever way it is written, and
-- that a reader that is lenient about leftovers finds this and refuses all but records.
namespace ControlPlane.Json

-- A record that is written as an object holds none of its names twice, whatever else it
-- holds. One that is written as an array has an item for each name, up to some name.
inductive IsRecord (names : List String) : Value → Prop where
  | object {named : Fields} (once : ∀ name ∈ names, (named.map (·.1)).count name ≤ 1) :
      IsRecord names (.record named)
  | array {items : List Value} (few : items.length ≤ names.length) : IsRecord names (.array items)

inductive Holds (names : List String) (name : String) (v : Value) : Value → Prop where
  | member {named : Fields} (member : (name, v) ∈ named) : Holds names name v (.record named)
  | item {items : List Value} {place : Nat} (named : names[place]? = some name)
      (item : items[place]? = some v) : Holds names name v (.array items)

theorem record_injective {a b : Fields} (same : Value.record a = Value.record b) : a = b := by
  refine (List.map_inj_right ?_).1 (Value.object.inj same)
  rintro ⟨name, v⟩ ⟨other, w⟩ pair
  cases pair
  rfl

theorem holds_record {names : List String} {name : String} {v : Value} {named : Fields} :
    Holds names name v (.record named) ↔ (name, v) ∈ named := by
  constructor
  · generalize same : Value.record named = record
    rintro (member | _)
    · rwa [record_injective same]
    · cases same
  · exact .member

theorem distinct_filter {names : List String} {named : Fields} :
    ((named.filter fun m => names.contains m.1).map (·.1)).Nodup ↔
      ∀ name ∈ names, (named.map (·.1)).count name ≤ 1 := by
  have keys : (named.filter fun m => names.contains m.1).map (·.1) =
      (named.map (·.1)).filter names.contains := by
    rw [List.filter_map]
    rfl
  rw [keys, List.nodup_iff_count_le_one]
  constructor
  · intro once name known
    have count := once name
    rwa [List.count_filter (List.contains_iff_mem.2 known)] at count
  · intro once name
    by_cases known : name ∈ names
    · rw [List.count_filter (List.contains_iff_mem.2 known)]
      exact once name known
    · rw [List.count_eq_zero.2]
      · exact Nat.zero_le 1
      · intro member
        exact known (List.contains_iff_mem.1 (List.mem_filter.1 member).2)

theorem isRecord_record {names : List String} {named : Fields} :
    IsRecord names (.record named) ↔ ∀ name ∈ names, (named.map (·.1)).count name ≤ 1 := by
  constructor
  · generalize same : Value.record named = record
    rintro (once | _)
    · rwa [record_injective same]
    · cases same
  · exact .object

theorem lookup_iff_mem {fields : Fields} (distinct : (fields.map (·.1)).Nodup) {name : String}
    {v : Value} : fields.lookup name = some v ↔ (name, v) ∈ fields := by
  refine ⟨fun found => ?_, lookup_of_mem distinct⟩
  obtain ⟨before, after, rfl, _⟩ := List.lookup_eq_some_iff.1 found
  simp

theorem names_zip_sublist (names : List String) (items : List Value) :
    ((names.zip items).map (·.1)).Sublist names := by
  induction names generalizing items with
  | nil => exact .slnil
  | cons name names ih =>
    cases items with
    | nil => exact List.nil_sublist _
    | cons v items => exact (ih items).cons_cons name

structure Found (names : List String) (record : Value) (fields : Fields) : Prop where
  isRecord : IsRecord names record
  lookup_iff : ∀ name ∈ names, ∀ v, fields.lookup name = some v ↔ Holds names name v record

theorem found_of_read {names : List String} (distinct : names.Nodup) {record : Value}
    {fields : Fields} (read : readRecord .lenient names record = some fields) :
    Found names record fields := by
  cases record with
  | object members =>
    obtain ⟨named, rfl, rfl, single, _⟩ := readRecord_object read
    refine ⟨.object (distinct_filter.1 single), fun name known v => ?_⟩
    rw [lookup_iff_mem single, List.mem_filter]
    refine Iff.trans ?_ holds_record.symm
    exact and_iff_left (List.contains_iff_mem.2 known)
  | array items =>
    simp only [readRecord] at read
    split at read
    · cases read
    · rename_i few
      cases read
      have few : items.length ≤ names.length := by simpa [Leftovers.lenient] using few
      refine ⟨.array few, fun name known v => ?_⟩
      rw [lookup_iff_mem (distinct.sublist (names_zip_sublist names items)),
        List.mem_iff_getElem?]
      simp only [List.getElem?_zip_eq_some]
      constructor
      · rintro ⟨place, named, item⟩
        exact .item named item
      · intro held
        cases held with
        | item named item => exact ⟨_, named, item⟩
  | _ => cases read

theorem read_of_isRecord {names : List String} {record : Value} (isRecord : IsRecord names record) :
    ∃ fields, readRecord .lenient names record = some fields := by
  cases isRecord with
  | object once =>
    rename_i named
    refine ⟨named.filter fun m => names.contains m.1, ?_⟩
    simp only [readRecord, Value.record, namedMembers_record, Option.bind_eq_bind, Option.bind_some]
    rw [if_neg (not_not.2 (distinct_filter.2 once)), if_neg (by simp [Leftovers.lenient])]
  | array few =>
    rename_i items
    refine ⟨names.zip items, ?_⟩
    simp only [readRecord]
    rw [if_neg (by simp [Leftovers.lenient, few])]

theorem Found.required_eq_some {α : Type} {names : List String} {record : Value} {fields : Fields}
    (found : Found names record fields) {name : String} (known : name ∈ names)
    {read : Value → Option α} {a : α} : fields.required name read = some a ↔
      ∃ v, Holds names name v record ∧ read v = some a := by
  simp only [Fields.required, Option.bind_eq_some_iff, found.lookup_iff name known]

theorem Found.withDefault_eq_some {α : Type} {names : List String} {record : Value}
    {fields : Fields} (found : Found names record fields) {name : String} (known : name ∈ names)
    {read : Value → Option α} {default a : α} : fields.withDefault name default read = some a ↔
      (∃ v, Holds names name v record ∧ read v = some a) ∨
        a = default ∧ ∀ v, ¬ Holds names name v record := by
  simp only [← found.lookup_iff name known]
  unfold Fields.withDefault
  cases fields.lookup name with
  | none => simp [eq_comm]
  | some v => simp

theorem IsRecord.holds_unique {names : List String} {record v w : Value}
    (isRecord : IsRecord names record) (distinct : names.Nodup) {name : String}
    (known : name ∈ names) (first : Holds names name v record)
    (second : Holds names name w record) : v = w := by
  obtain ⟨fields, read⟩ := read_of_isRecord isRecord
  have lookup := (found_of_read distinct read).lookup_iff name known
  have found := (lookup v).2 first
  rw [(lookup w).2 second] at found
  exact (Option.some.inj found).symm

theorem text?_eq_some {v : Value} {s : String} : text? v = some s ↔ v = .ofString s := by
  constructor
  · intro read
    unfold text? at read
    split at read
    · rw [read]
      rfl
    · cases read
  · rintro rfl
    exact text?_ofString s

theorem int?_eq_some {v : Value} {i : Int} : int? v = some i ↔ v = .ofInt i := by
  constructor
  · intro read
    unfold int? at read
    split at read
    · unfold Number.toInt? at read
      split at read
      · cases read
        simp [Value.ofInt]
      · cases read
      · rename_i n nonzero
        cases read
        have positive : 0 < n := Nat.pos_of_ne_zero nonzero
        simp [Value.ofInt, positive]
      · cases read
    · cases read
  · rintro rfl
    exact toInt?_ofInt i

theorem onlyMember?_eq_some {v body : Value} {name : String} :
    onlyMember? v = some (name, body) ↔ v = .record [(name, body)] := by
  constructor
  · intro read
    unfold onlyMember? at read
    split at read
    · cases read
      rfl
    · cases read
  · rintro rfl
    rfl

end ControlPlane.Json
