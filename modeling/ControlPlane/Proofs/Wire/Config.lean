import ControlPlane.Proofs.Metadata
import ControlPlane.Wire.Message
-- A description of a runtime and the options that are sent for it.
namespace ControlPlane.Wire.OpenOpts

theorem substrate_ofConfig {config : RuntimeConfig} (valid : config.check = .ok ()) :
    (ofConfig config).substrate = config.backend := by
  obtain ⟨backend, tags, labels⟩ := config
  cases backend with
  | host => rfl
  | docker opts =>
    -- A description that passes its check has none.
    have single : opts.conflicting = false := by
      simp only [RuntimeConfig.check] at valid
      split at valid
      · cases valid
      · split at valid
        · cases valid
        · rename_i conflict
          exact Bool.eq_false_iff.2 conflict
    obtain ⟨image, pullStrategy, auth, conflicting⟩ := opts
    cases single
    rfl

theorem toConfig_ofConfig {config : RuntimeConfig} (valid : config.check = .ok ()) :
    (ofConfig config).toConfig = .ok config := by
  have same : (⟨(ofConfig config).substrate, (ofConfig config).tags,
      .ofList (ofConfig config).labels⟩ : RuntimeConfig) = config := by
    rw [substrate_ofConfig valid]
    show (⟨config.backend, config.tags, .ofList config.labels.names⟩ : RuntimeConfig) = config
    rw [Labels.ofList_names]
  rw [toConfig, same]
  simp only [valid]
  rfl

end ControlPlane.Wire.OpenOpts
