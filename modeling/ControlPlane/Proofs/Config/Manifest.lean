import ControlPlane.Manifest
import ControlPlane.Proofs.Metadata
-- A manifest is turned into the description that is built step by step from the same
-- parts, or refused for the same fault.
namespace ControlPlane
open RuntimeConfig

def RuntimeConfig.checked (config : RuntimeConfig) : Except ConfigError RuntimeConfig :=
  config.check.map fun _ => config

theorem RuntimeConfig.applyAll_append (config : RuntimeConfig) (steps more : List Step) :
    config.applyAll (steps ++ more) = (config.applyAll steps).applyAll more := List.foldl_append

theorem RuntimeConfig.checked_eq_ok {config made : RuntimeConfig} :
    config.checked = .ok made ↔ config.check = .ok () ∧ made = config := by
  unfold checked
  cases config.check with
  | error e => simp [Except.map]
  | ok done => simp [Except.map, eq_comm]

inductive PullStrategy.Recognised : Option String → Option PullStrategy → Prop where
  | absent : Recognised none none
  | named {text : String} {strategy : PullStrategy} (name : ofName? text = some strategy) :
      Recognised (some text) (some strategy)

namespace DockerSection

def steps (d : DockerSection) (strategy : Option PullStrategy) : List Step :=
  strategy.toList.map .pullStrategy
    ++ d.basicAuth.toList.map (fun basic => .auth (.basic basic.username basic.password))
    ++ d.ecrAuth.toList.map fun ecr => .auth (.ecr ecr.region ecr.accessKeyId ecr.secretKey)

def opts (d : DockerSection) (strategy : Option PullStrategy) : DockerOpts where
  image := d.image
  pullStrategy := strategy
  auth :=
    match d.basicAuth, d.ecrAuth with
    | _, some ecr => some (.ecr ecr.region ecr.accessKeyId ecr.secretKey)
    | some basic, none => some (.basic basic.username basic.password)
    | none, none => none
  conflicting := d.basicAuth.isSome && d.ecrAuth.isSome

theorem applyAll_steps (d : DockerSection) (strategy : Option PullStrategy) :
    (ofBackend (.docker (.ofImage d.image))).applyAll (d.steps strategy) =
      ofBackend (.docker (d.opts strategy)) := by
  obtain ⟨image, text, basicAuth, ecrAuth⟩ := d
  cases strategy <;> cases basicAuth <;> cases ecrAuth <;> rfl

theorem strategy_recognised {d : DockerSection} {strategy : Option PullStrategy}
    (known : PullStrategy.Recognised d.pullStrategy strategy) : d.strategy = .ok strategy := by
  obtain ⟨image, text, basicAuth, ecrAuth⟩ := d
  cases known with
  | absent => rfl
  | named name =>
    simp only [DockerSection.strategy, PullStrategy.read, name]
    rfl

theorem strategy_unrecognised {d : DockerSection} {text : String}
    (given : d.pullStrategy = some text) (unknown : PullStrategy.ofName? text = none) :
    d.strategy = .error (.unknownPullStrategy text) := by
  simp only [DockerSection.strategy, given, PullStrategy.read, unknown]
  rfl

theorem toOpts_eq (d : DockerSection) (tags : Tags) (labels : Labels) :
    d.toOpts = (⟨.docker (d.opts none), tags, labels⟩ : RuntimeConfig).check.bind fun _ =>
      d.strategy.map d.opts := by
  unfold toOpts
  cases blank : isBlankText d.image with
  | true => simp [check, opts, blank, Except.bind]
  | false =>
    obtain ⟨image, text, basicAuth, ecrAuth⟩ := d
    dsimp only at blank
    simp only [check, opts, blank, auth]
    cases basicAuth with
    | none => cases ecrAuth <;> rfl
    | some basic => cases ecrAuth <;> rfl

theorem toOpts_recognised {d : DockerSection} {strategy : Option PullStrategy}
    (read : d.strategy = .ok strategy) (tags : Tags) (labels : Labels) :
    (d.toOpts.bind fun opts => (⟨.docker opts, tags, labels⟩ : RuntimeConfig).checked) =
      (⟨.docker (d.opts strategy), tags, labels⟩ : RuntimeConfig).checked := by
  have same : (⟨.docker (d.opts strategy), tags, labels⟩ : RuntimeConfig).check =
      (⟨.docker (d.opts none), tags, labels⟩ : RuntimeConfig).check := rfl
  rw [d.toOpts_eq tags labels, read, checked, same]
  cases valid : (⟨.docker (d.opts none), tags, labels⟩ : RuntimeConfig).check with
  | error e => rfl
  | ok done =>
    show (⟨.docker (d.opts strategy), tags, labels⟩ : RuntimeConfig).checked = _
    rw [checked, same, valid]

theorem toOpts_unrecognised {d : DockerSection} {e : ConfigError} (read : d.strategy = .error e)
    (tags : Tags) (labels : Labels) :
    (d.toOpts.bind fun opts => (⟨.docker opts, tags, labels⟩ : RuntimeConfig).checked) =
      (⟨.docker (d.opts none), tags, labels⟩ : RuntimeConfig).check.bind fun _ => .error e := by
  rw [d.toOpts_eq tags labels, read]
  cases (⟨.docker (d.opts none), tags, labels⟩ : RuntimeConfig).check with
  | error e => rfl
  | ok done => rfl

end DockerSection

namespace Manifest

def contents (m : Manifest) : List Step := [.tags m.tags.entries, .labels m.labels]

def built (m : Manifest) (d : DockerSection) (strategy : Option PullStrategy) : RuntimeConfig :=
  (ofBackend (.docker (.ofImage d.image))).applyAll (d.steps strategy ++ m.contents)

def builtHost (m : Manifest) : RuntimeConfig := (ofBackend .host).applyAll m.contents

theorem applyAll_contents (m : Manifest) (backend : Substrate) :
    (ofBackend backend).applyAll m.contents = ⟨backend, m.tags, .ofList m.labels⟩ := by
  show (⟨backend, .ofList m.tags.entries, .ofList m.labels⟩ : RuntimeConfig) = _
  rw [Tags.ofList_entries]

theorem built_eq (m : Manifest) (d : DockerSection) (strategy : Option PullStrategy) :
    m.built d strategy = ⟨.docker (d.opts strategy), m.tags, .ofList m.labels⟩ := by
  rw [built, applyAll_append, d.applyAll_steps, applyAll_contents]

theorem toConfig_eq (m : Manifest) : m.toConfig =
    m.substrate.bind fun backend =>
      (⟨backend, m.tags, .ofList m.labels⟩ : RuntimeConfig).checked := by
  unfold toConfig checked
  cases m.substrate with
  | error e => rfl
  | ok backend =>
    simp only [bind, Except.bind]
    cases RuntimeConfig.check _ with
    | error e => rfl
    | ok done => rfl

theorem toConfig_docker {m : Manifest} {d : DockerSection} (kind : m.backend = "docker")
    (given : m.docker = some d) : m.toConfig =
      d.toOpts.bind fun opts =>
        (⟨.docker opts, m.tags, .ofList m.labels⟩ : RuntimeConfig).checked := by
  have substrate : m.substrate = d.toOpts.map .docker := by simp [Manifest.substrate, kind, given]
  rw [toConfig_eq, substrate]
  cases d.toOpts with
  | error e => rfl
  | ok opts => rfl

theorem toConfig_host {m : Manifest} (kind : m.backend = "host") (given : m.docker = none) :
    m.toConfig = .ok m.builtHost := by
  have substrate : m.substrate = .ok .host := by simp [Manifest.substrate, kind, given]
  rw [toConfig_eq, substrate, builtHost, applyAll_contents]
  rfl

theorem substrate_other {m : Manifest} {backend : Substrate}
    (other : ¬ (m.backend = "docker" ∧ m.docker.isSome = true))
    (made : m.substrate = .ok backend) : m.backend = "host" ∧ m.docker = none := by
  unfold Manifest.substrate at made
  split at made
  · rename_i host
    cases given : m.docker with
    | none => exact ⟨host, rfl⟩
    | some d => simp [given] at made
  · split at made
    · rename_i docker
      cases given : m.docker with
      | none => simp [given] at made
      | some d => exact absurd ⟨docker, by rw [given]; rfl⟩ other
    · cases made

theorem parts_of_toConfig {m : Manifest} {config : RuntimeConfig}
    (made : m.toConfig = .ok config) :
    config.check = .ok () ∧ ∃ backend, m.substrate = .ok backend := by
  rw [toConfig_eq] at made
  cases found : m.substrate with
  | error e =>
    rw [found] at made
    cases made
  | ok backend =>
    rw [found] at made
    obtain ⟨valid, rfl⟩ := checked_eq_ok.1 made
    exact ⟨valid, backend, rfl⟩

-- A manifest with a docker section ends as the description built from its parts does, faults
-- included. A strategy without meaning is reported behind every other fault. All other
-- manifests are refused but those of a plain host. What is made passes its check.
theorem agrees_with_built (m : Manifest) :
    (∀ d, m.backend = "docker" → m.docker = some d →
      (∀ strategy, PullStrategy.Recognised d.pullStrategy strategy →
        m.toConfig = (m.built d strategy).checked) ∧
      ∀ text, d.pullStrategy = some text → PullStrategy.ofName? text = none →
        m.toConfig = (m.built d none).check.bind fun _ => .error (.unknownPullStrategy text)) ∧
    (¬ (m.backend = "docker" ∧ m.docker.isSome = true) → ∀ config,
      m.toConfig = .ok config ↔
        m.backend = "host" ∧ m.docker = none ∧ config = m.builtHost) ∧
    ∀ config, m.toConfig = .ok config → config.check = .ok () := by
  refine ⟨?_, ?_, ?_⟩
  · intro d kind given
    rw [toConfig_docker kind given]
    constructor
    · intro strategy known
      rw [built_eq]
      exact DockerSection.toOpts_recognised (DockerSection.strategy_recognised known) _ _
    · intro text asked unknown
      rw [built_eq]
      exact DockerSection.toOpts_unrecognised
        (DockerSection.strategy_unrecognised asked unknown) _ _
  · intro other config
    constructor
    · intro made
      obtain ⟨_, backend, found⟩ := parts_of_toConfig made
      obtain ⟨host, bare⟩ := substrate_other other found
      rw [toConfig_host host bare] at made
      cases made
      exact ⟨host, bare, rfl⟩
    · rintro ⟨host, bare, rfl⟩
      exact toConfig_host host bare
  · intro config made
    exact (parts_of_toConfig made).1

def registrySection : DockerSection := ⟨"alpine", some "not-exists", some ⟨"ci", "pw"⟩, none⟩

def registry : Manifest :=
  ⟨"docker", .ofList [("name", "lint"), ("a", "1")], ["gpu", "arm", "gpu"], some registrySection⟩

def faultySection : DockerSection :=
  ⟨"alpine", some "daily", some ⟨"ci", "pw"⟩, some ⟨"eu", "id", "key"⟩⟩

def faulty : Manifest := ⟨"docker", .empty, [], some faultySection⟩

theorem agrees_with_built_registry :
    PullStrategy.Recognised registrySection.pullStrategy (some .ifNotPresent) ∧
      registry.toConfig = .ok (registry.built registrySection (some .ifNotPresent)) ∧
      (registry.built registrySection (some .ifNotPresent)).check = .ok () ∧
      PullStrategy.ofName? "daily" = none ∧ faulty.toConfig = .error .conflictingAuth ∧
      (⟨"vm", .empty, [], none⟩ : Manifest).toConfig ≠
        .ok (⟨"vm", .empty, [], none⟩ : Manifest).builtHost := by
  obtain ⟨docker, _, valid⟩ := agrees_with_built registry
  have known : PullStrategy.Recognised registrySection.pullStrategy (some .ifNotPresent) :=
    .named rfl
  have made : registry.toConfig = .ok (registry.built registrySection (some .ifNotPresent)) :=
    (docker registrySection rfl rfl).1 _ known
  have refused : faulty.toConfig = .error .conflictingAuth :=
    ((agrees_with_built faulty).1 faultySection rfl rfl).2 "daily" rfl rfl
  have only := (agrees_with_built ⟨"vm", .empty, [], none⟩).2.1 (by simp)
  refine ⟨known, made, valid _ made, rfl, refused, ?_⟩
  intro accepted
  have host := ((only _).1 accepted).1
  simp at host

end Manifest

end ControlPlane
