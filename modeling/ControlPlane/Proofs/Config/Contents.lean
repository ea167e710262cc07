import Mathlib.Data.List.Sort
import ControlPlane.Proofs.Metadata
import ControlPlane.RuntimeConfig
-- Tags are told by the value of each name and labels by their members, whatever the steps
-- by which a description came to hold them.
namespace ControlPlane

theorem lookup_cons_ite {name value other : String} {rest : List (String × String)} :
    ((name, value) :: rest).lookup other =
      if other = name then some value else rest.lookup other := by
  rw [List.lookup_cons]
  by_cases same : other = name
  · simp [same]
  · simp [same, beq_false_of_ne same]

theorem lookup_insertTag {name value other : String} {entries : List (String × String)} :
    (insertTag name value entries).lookup other =
      if other = name then some value else entries.lookup other := by
  induction entries with
  | nil => exact lookup_cons_ite
  | cons head rest ih =>
    obtain ⟨n, v⟩ := head
    unfold insertTag
    split
    · exact lookup_cons_ite
    · split
      · rename_i higher
        rw [lookup_cons_ite, lookup_cons_ite, ih]
        by_cases first : other = n
        · have later : other ≠ name := fun same => String.lt_irrefl _ (first ▸ same ▸ higher)
          rw [if_pos first, if_neg later, if_pos first]
        · rw [if_neg first, if_neg first]
      · rename_i notLower notHigher
        cases not_lt_both notLower notHigher
        rw [lookup_cons_ite, lookup_cons_ite]
        by_cases same : other = name
        · rw [if_pos same, if_pos same]
        · rw [if_neg same, if_neg same, if_neg same]

namespace Tags

theorem get?_insert {tags : Tags} {name value other : String} :
    (tags.insert name value).get? other = if other = name then some value else tags.get? other :=
  lookup_insertTag

theorem insertAll_append (tags : Tags) (entries more : List (String × String)) :
    tags.insertAll (entries ++ more) = (tags.insertAll entries).insertAll more :=
  List.foldl_append

def lastValue (name : String) (entries : List (String × String)) : Option String :=
  entries.reverse.lookup name

theorem get?_insertAll {tags : Tags} {entries : List (String × String)} {name : String} :
    (tags.insertAll entries).get? name = (lastValue name entries).or (tags.get? name) := by
  induction entries generalizing tags with
  | nil => rfl
  | cons e entries ih =>
    have rest : (tags.insertAll (e :: entries)).get? name = _ := @ih (tags.insert e.1 e.2)
    rw [rest, get?_insert, lastValue, lastValue, List.reverse_cons, List.lookup_append,
      Option.or_assoc, lookup_cons_ite]
    by_cases same : name = e.1
    · rw [if_pos same, if_pos same, Option.some_or]
    · rw [if_neg same, if_neg same, List.lookup_nil, Option.none_or]

theorem distinct (tags : Tags) : (tags.entries.map (·.1)).Nodup := by
  rw [List.nodup_iff_pairwise_ne, List.pairwise_map]
  exact tags.sorted.imp fun less => String.ne_of_lt less

theorem mem_entries_iff {tags : Tags} {name value : String} :
    (name, value) ∈ tags.entries ↔ tags.get? name = some value := by
  constructor
  · exact lookup_of_mem tags.distinct
  · intro found
    obtain ⟨before, after, same, _⟩ := List.lookup_eq_some_iff.1 found
    rw [same]
    simp

theorem eq_of_get? {tags others : Tags} (same : ∀ name, tags.get? name = others.get? name) :
    tags = others := by
  have members : ∀ e, e ∈ tags.entries ↔ e ∈ others.entries := by
    rintro ⟨name, value⟩
    rw [mem_entries_iff, mem_entries_iff, same]
  have perm : tags.entries.Perm others.entries :=
    (List.perm_ext_iff_of_nodup (.of_map _ tags.distinct) (.of_map _ others.distinct)).2 members
  have entries : tags.entries = others.entries := by
    apply perm.eq_of_pairwise _ tags.sorted others.sorted
    intro one other _ _ less greater
    exact absurd greater (String.lt_asymm less)
  cases tags
  cases others
  cases entries
  rfl

end Tags

theorem Labels.insertAll_append (labels : Labels) (names more : List String) :
    labels.insertAll (names ++ more) = (labels.insertAll names).insertAll more :=
  List.foldl_append

theorem Labels.eq_of_mem {labels others : Labels}
    (same : ∀ label, label ∈ labels.names ↔ label ∈ others.names) : labels = others := by
  obtain ⟨names, sorted⟩ := labels
  obtain ⟨others, sorted'⟩ := others
  congr 1
  exact sorted.eq_of_mem_iff sorted' same

namespace RuntimeConfig

def Step.entries : Step → List (String × String)
  | .tag name value => [(name, value)]
  | .tags more => more
  | _ => []

def Step.names : Step → List String
  | .label new => [new]
  | .labels more => more
  | _ => []

def Step.isMetadata : Step → Bool
  | .tag .. | .tags _ | .label _ | .labels _ => true
  | .pullStrategy _ | .auth _ => false

theorem tags_apply (config : RuntimeConfig) (step : Step) :
    (config.apply step).tags = config.tags.insertAll step.entries := by
  cases step <;> rfl

theorem labels_apply (config : RuntimeConfig) (step : Step) :
    (config.apply step).labels = config.labels.insertAll step.names := by
  cases step <;> rfl

theorem backend_apply (config : RuntimeConfig) {step : Step} (kind : step.isMetadata = true) :
    (config.apply step).backend = config.backend := by
  cases step with
  | tag _ _ | tags _ | label _ | labels _ => rfl
  | pullStrategy _ | auth _ => cases kind

theorem tags_applyAll (config : RuntimeConfig) (steps : List Step) :
    (config.applyAll steps).tags = config.tags.insertAll (steps.flatMap Step.entries) := by
  induction steps generalizing config with
  | nil => rfl
  | cons step steps ih =>
    have rest : (config.applyAll (step :: steps)).tags = _ := ih (config.apply step)
    rw [rest, tags_apply, List.flatMap_cons, Tags.insertAll_append]

theorem labels_applyAll (config : RuntimeConfig) (steps : List Step) :
    (config.applyAll steps).labels = config.labels.insertAll (steps.flatMap Step.names) := by
  induction steps generalizing config with
  | nil => rfl
  | cons step steps ih =>
    have rest : (config.applyAll (step :: steps)).labels = _ := ih (config.apply step)
    rw [rest, labels_apply, List.flatMap_cons, Labels.insertAll_append]

theorem backend_applyAll (config : RuntimeConfig) {steps : List Step}
    (kinds : ∀ step ∈ steps, step.isMetadata = true) :
    (config.applyAll steps).backend = config.backend := by
  induction steps generalizing config with
  | nil => rfl
  | cons step steps ih =>
    have rest : (config.applyAll (step :: steps)).backend = _ :=
      ih (config.apply step) fun later member => kinds later (.tail _ member)
    rw [rest, backend_apply config (kinds step (.head _))]

structure SameContents (steps others : List Step) : Prop where
  values : ∀ name, Tags.lastValue name (steps.flatMap Step.entries) =
    Tags.lastValue name (others.flatMap Step.entries)
  labels : ∀ label, label ∈ steps.flatMap Step.names ↔ label ∈ others.flatMap Step.names

theorem applyAll_congr (config : RuntimeConfig) {steps others : List Step}
    (kinds : ∀ step ∈ steps, step.isMetadata = true)
    (kinds' : ∀ step ∈ others, step.isMetadata = true) (same : SameContents steps others) :
    config.applyAll steps = config.applyAll others := by
  have backend : (config.applyAll steps).backend = (config.applyAll others).backend := by
    rw [backend_applyAll config kinds, backend_applyAll config kinds']
  have tags : (config.applyAll steps).tags = (config.applyAll others).tags := by
    apply Tags.eq_of_get?
    intro name
    rw [tags_applyAll, tags_applyAll, Tags.get?_insertAll, Tags.get?_insertAll, same.values]
  have labels : (config.applyAll steps).labels = (config.applyAll others).labels := by
    apply Labels.eq_of_mem
    intro label
    rw [labels_applyAll, labels_applyAll, Labels.mem_insertAll, Labels.mem_insertAll, same.labels]
  cases made : config.applyAll steps
  cases made' : config.applyAll others
  rw [made, made'] at backend tags labels
  cases backend
  cases tags
  cases labels
  rfl

end RuntimeConfig

end ControlPlane
