import ControlPlane.Proofs.Text.Order
import ControlPlane.Proofs.Wire.Config
import ControlPlane.Proofs.Wire.RoundTrip
-- Descriptions of runtimes and the options that are sent for them carry the same: nothing
-- is lost on the way to the other side and back, and options lose no more than the order
-- and the repetitions of their labels.
namespace ControlPlane.Wire.OpenOpts

def received (config : RuntimeConfig) : Option (Except ConfigError RuntimeConfig) :=
  ((Json.ofText? (ofConfig config).toJson.text).bind (ofJson? 0)).map toConfig

def receivedOctets (config : RuntimeConfig) : Option (Except ConfigError RuntimeConfig) :=
  ((Json.ofBytes? (ofConfig config).toJson.bytes).bind (ofJson? 0)).map toConfig

theorem received_valid {config : RuntimeConfig} (valid : config.check = .ok ()) :
    received config = some (.ok config) ∧ receivedOctets config = some (.ok config) := by
  have back : ReadsBack toJson (ofJson? 0) := readsBack_of_document (ofJson?_toJson (by decide))
  obtain ⟨text, octets⟩ := back (ofConfig config)
  constructor
  · rw [received, text, Option.map_some, toConfig_ofConfig valid]
  · rw [receivedOctets, octets, Option.map_some, toConfig_ofConfig valid]

theorem toConfig_ok {opts : OpenOpts} {config : RuntimeConfig} (made : opts.toConfig = .ok config) :
    config = ⟨opts.substrate, opts.tags, .ofList opts.labels⟩ ∧ config.check = .ok () := by
  unfold toConfig at made
  dsimp only at made
  cases valid : (⟨opts.substrate, opts.tags, .ofList opts.labels⟩ : RuntimeConfig).check with
  | error e => simp [valid, bind, Except.bind] at made
  | ok done =>
    simp only [valid, bind, Except.bind, Except.ok.injEq] at made
    subst made
    exact ⟨rfl, valid⟩

theorem backend_ofConfig {opts : OpenOpts} {config : RuntimeConfig}
    (backend : config.backend = opts.substrate) : (ofConfig config).backend = opts.backend := by
  unfold ofConfig
  rw [backend]
  cases same : opts.backend with
  | host => simp [substrate, same]
  | docker image pullStrategy auth => simp [substrate, same]

-- Options that are the same but for their labels, which are put in order and kept once each.
structure Tidied (opts tidy : OpenOpts) : Prop where
  backend : tidy.backend = opts.backend
  tags : tidy.tags = opts.tags
  labels : ∀ label, label ∈ tidy.labels ↔ label ∈ opts.labels
  increasing : tidy.labels.Pairwise fun a b => bytesOf a < bytesOf b

theorem tidied_ofConfig {opts : OpenOpts} {config : RuntimeConfig}
    (made : opts.toConfig = .ok config) : Tidied opts (ofConfig config) := by
  obtain ⟨rfl, _⟩ := toConfig_ok made
  refine ⟨backend_ofConfig rfl, rfl, fun label => Labels.mem_ofList, ?_⟩
  exact (Labels.ofList opts.labels).sorted.imp bytesOf_lt_iff.2

-- A description that passes its check comes back as it was sent. Options that are accepted
-- come back tidied, and from then on as they are.
theorem translation_keeps :
    (∀ config : RuntimeConfig, config.check = .ok () →
      received config = some (.ok config) ∧ receivedOctets config = some (.ok config)) ∧
    ∀ (opts : OpenOpts) (config : RuntimeConfig), opts.toConfig = .ok config →
      Tidied opts (ofConfig config) ∧ (ofConfig config).toConfig = .ok config := by
  refine ⟨fun config valid => received_valid valid, ?_⟩
  intro opts config made
  exact ⟨tidied_ofConfig made, toConfig_ofConfig (toConfig_ok made).2⟩

theorem translation_keeps_registry :
    ∃ config, (⟨.docker "alpine" (some .never) (some (.ecr "eu" "id" "key")), .ofList [("b", "2"), ("a", "1")],
        ["x", "gpu", "x"]⟩ : OpenOpts).toConfig = .ok config ∧
      config.check = .ok () ∧ received config = some (.ok config) ∧
      (ofConfig config).labels = ["gpu", "x"] ∧ (ofConfig config).toConfig = .ok config := by
  obtain ⟨there, back⟩ := translation_keeps
  have made : (⟨.docker "alpine" (some .never) (some (.ecr "eu" "id" "key")),
      .ofList [("b", "2"), ("a", "1")], ["x", "gpu", "x"]⟩ : OpenOpts).toConfig =
        .ok ⟨.docker ⟨"alpine", some .never, some (.ecr "eu" "id" "key"), false⟩,
          .ofList [("b", "2"), ("a", "1")], .ofList ["x", "gpu", "x"]⟩ := rfl
  have valid := (toConfig_ok made).2
  exact ⟨_, made, valid, (there _ valid).1, by decide, (back _ _ made).2⟩

end ControlPlane.Wire.OpenOpts
