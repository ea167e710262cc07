import ControlPlane.Proofs.Config.Contents
import ControlPlane.Proofs.Text.Order
import ControlPlane.Proofs.Wire.RoundTrip
-- What is sent for a description depends on what it holds, and not on the steps by which
-- it came to hold it.
namespace ControlPlane.Wire.OpenOpts
open RuntimeConfig

def InOrder (text : String) : Prop :=
  ∃ backend tags labels,
    Json.ofText? text = some (.record [("backend", backend), ("tags", .record tags),
      ("labels", .ofStrings labels)]) ∧
    (tags.map (·.1)).Pairwise (fun one other => bytesOf one < bytesOf other) ∧
    labels.Pairwise fun one other => bytesOf one < bytesOf other

theorem inOrder_text (config : RuntimeConfig) : InOrder (ofConfig config).toJson.text := by
  refine ⟨(ofConfig config).backend.toJson,
    config.tags.entries.map fun e => (e.1, .ofString e.2), config.labels.names, ?_, ?_, ?_⟩
  · exact Json.ofText?_text (ofConfig config).toJson
  · rw [List.map_map, List.pairwise_map]
    exact config.tags.sorted.imp bytesOf_lt_iff.2
  · exact config.labels.sorted.imp bytesOf_lt_iff.2

-- Steps in any order and grouping, with any repetitions, make the same description and the
-- same request, in order, if they give each name the same last value and the same labels.
-- Names and labels that they do not mention stay as they are.
theorem request_canonical (start : RuntimeConfig) {steps others : List Step}
    (kinds : ∀ step ∈ steps, step.isMetadata = true)
    (kinds' : ∀ step ∈ others, step.isMetadata = true) (same : SameContents steps others) :
    start.applyAll steps = start.applyAll others ∧
      (ofConfig (start.applyAll steps)).toJson.text =
        (ofConfig (start.applyAll others)).toJson.text ∧
      (ofConfig (start.applyAll steps)).toJson.bytes =
        (ofConfig (start.applyAll others)).toJson.bytes ∧
      InOrder (ofConfig (start.applyAll steps)).toJson.text ∧
      (∀ name, (start.applyAll steps).tags.get? name =
        (Tags.lastValue name (steps.flatMap Step.entries)).or (start.tags.get? name)) ∧
      ∀ label, label ∈ (start.applyAll steps).labels.names ↔
        label ∈ steps.flatMap Step.names ∨ label ∈ start.labels.names := by
  have equal := start.applyAll_congr kinds kinds' same
  refine ⟨equal, ?_, ?_, inOrder_text _, ?_, ?_⟩
  · rw [equal]
  · rw [equal]
  · intro name
    rw [tags_applyAll, Tags.get?_insertAll]
  · intro label
    rw [labels_applyAll, Labels.mem_insertAll]

def stepwise : List Step :=
  [.tag "b" "1", .label "gpu", .tag "a" "x", .tag "b" "2", .labels ["arm", "gpu"]]

def batched : List Step := [.labels ["arm"], .tags [("b", "2"), ("a", "x")], .label "gpu"]

theorem sameContents_batched : SameContents stepwise batched := by
  constructor
  · intro name
    show List.lookup name [("b", "2"), ("a", "x"), ("b", "1")] =
      List.lookup name [("a", "x"), ("b", "2")]
    simp only [lookup_cons_ite, List.lookup_nil]
    by_cases second : name = "b"
    · rw [second]
      rfl
    · simp only [second, if_false]
  · intro label
    show label ∈ ["gpu", "arm", "gpu"] ↔ label ∈ ["arm", "gpu"]
    simp only [List.mem_cons, List.not_mem_nil, or_false]
    tauto

theorem request_canonical_batched :
    (∀ step ∈ stepwise, step.isMetadata = true) ∧ (∀ step ∈ batched, step.isMetadata = true) ∧
      SameContents stepwise batched ∧
      ((ofBackend .host).applyAll (.tag "c" "0" :: stepwise)).tags.entries =
        [("a", "x"), ("b", "2"), ("c", "0")] ∧
      (ofConfig (((ofBackend .host).apply (.tag "c" "0")).applyAll stepwise)).toJson.text =
        (ofConfig (((ofBackend .host).apply (.tag "c" "0")).applyAll batched)).toJson.text := by
  have kinds : ∀ step ∈ stepwise, step.isMetadata = true := by simp [stepwise, Step.isMetadata]
  have kinds' : ∀ step ∈ batched, step.isMetadata = true := by simp [batched, Step.isMetadata]
  have texts := (request_canonical ((ofBackend .host).apply (.tag "c" "0")) kinds kinds'
    sameContents_batched).2.1
  exact ⟨kinds, kinds', sameContents_batched, rfl, texts⟩

end ControlPlane.Wire.OpenOpts
