import ControlPlane.RuntimeConfig
-- A description remembers that a second scheme of credentials was set, whatever is set
-- afterwards, and keeps the credentials that were set last.
namespace ControlPlane

-- Credentials of both schemes are among those given.
structure BothSchemes (given : List RegistryAuth) : Prop where
  basic : ∃ username password, .basic username password ∈ given
  ecr : ∃ region accessKeyId secretKey, .ecr region accessKeyId secretKey ∈ given

theorem not_bothSchemes_nil : ¬ BothSchemes [] := by
  rintro ⟨⟨_, _, basic⟩, _⟩
  cases basic

theorem BothSchemes.of_differ {given : List RegistryAuth} {one other : RegistryAuth}
    (first : one ∈ given) (second : other ∈ given) (differ : one.sameScheme other = false) :
    BothSchemes given := by
  cases one with
  | basic username password =>
    cases other with
    | basic _ _ => cases differ
    | ecr region accessKeyId secretKey => exact ⟨⟨_, _, first⟩, ⟨_, _, _, second⟩⟩
  | ecr region accessKeyId secretKey =>
    cases other with
    | basic username password => exact ⟨⟨_, _, second⟩, ⟨_, _, _, first⟩⟩
    | ecr _ _ _ => cases differ

theorem BothSchemes.append {given : List RegistryAuth} (both : BothSchemes given)
    (more : List RegistryAuth) : BothSchemes (given ++ more) := by
  obtain ⟨⟨_, _, basic⟩, ⟨_, _, _, ecr⟩⟩ := both
  exact ⟨⟨_, _, List.mem_append_left more basic⟩, ⟨_, _, _, List.mem_append_left more ecr⟩⟩

theorem BothSchemes.earlier {given : List RegistryAuth} {auth : RegistryAuth}
    (both : BothSchemes (given ++ [auth])) : ∃ old ∈ given, old.sameScheme auth = false := by
  obtain ⟨⟨_, _, basic⟩, ⟨_, _, _, ecr⟩⟩ := both
  cases auth with
  | basic username password =>
    rcases List.mem_append.1 ecr with old | new
    · exact ⟨_, old, rfl⟩
    · simp at new
  | ecr region accessKeyId secretKey =>
    rcases List.mem_append.1 basic with old | new
    · exact ⟨_, old, rfl⟩
    · simp at new

theorem RegistryAuth.sameScheme_congr {last auth : RegistryAuth}
    (same : last.sameScheme auth = true) (old : RegistryAuth) :
    old.sameScheme auth = old.sameScheme last := by
  cases last <;> cases auth <;> cases same <;> cases old <;> rfl

namespace DockerOpts

-- The last credentials given are kept, and a conflict is noted when both schemes were given.
structure Remembers (opts : DockerOpts) (given : List RegistryAuth) : Prop where
  last : opts.auth = given.getLast?
  conflict : opts.conflicting = true ↔ BothSchemes given

theorem remembers_ofImage (image : String) : (ofImage image).Remembers [] := by
  refine ⟨rfl, ?_⟩
  constructor
  · intro noted
    cases noted
  · intro both
    exact absurd both not_bothSchemes_nil

-- It is enough to compare with the last credentials: if an earlier scheme differs from the
-- new one and the last does not, the conflict was noted before.
theorem Remembers.setAuth {opts : DockerOpts} {given : List RegistryAuth}
    (known : opts.Remembers given) (auth : RegistryAuth) :
    (opts.setAuth auth).Remembers (given ++ [auth]) := by
  refine ⟨by rw [List.getLast?_concat]; rfl, ?_⟩
  simp only [DockerOpts.setAuth, Bool.or_eq_true, Option.any_eq_true, Bool.not_eq_true',
    known.conflict, known.last]
  constructor
  · rintro (both | ⟨last, held, differ⟩)
    · exact both.append [auth]
    · have first : last ∈ given ++ [auth] := List.mem_append_left _ (List.mem_of_getLast? held)
      exact .of_differ first (by simp) differ
  · intro both
    obtain ⟨old, member, differ⟩ := both.earlier
    cases held : given.getLast? with
    | none =>
      rw [List.getLast?_eq_none_iff] at held
      rw [held] at member
      cases member
    | some last =>
      cases same : last.sameScheme auth with
      | false => exact .inr ⟨last, rfl, same⟩
      | true =>
        rw [RegistryAuth.sameScheme_congr same] at differ
        exact .inl (.of_differ member (List.mem_of_getLast? held) differ)

theorem Remembers.setPullStrategy {opts : DockerOpts} {given : List RegistryAuth}
    (known : opts.Remembers given) (strategy : PullStrategy) :
    (opts.setPullStrategy strategy).Remembers given := ⟨known.last, known.conflict⟩

end DockerOpts

namespace RuntimeConfig

def Step.credentials : Step → List RegistryAuth
  | .auth new => [new]
  | _ => []

def credentials (config : RuntimeConfig) : Option RegistryAuth :=
  match config.backend with
  | .host => none
  | .docker opts => opts.auth

def Remembers (config : RuntimeConfig) (image : String) (given : List RegistryAuth) : Prop :=
  ∃ opts, config.backend = .docker opts ∧ opts.image = image ∧ opts.Remembers given

theorem Remembers.apply {config : RuntimeConfig} {image : String} {given : List RegistryAuth}
    (known : config.Remembers image given) (step : Step) :
    (config.apply step).Remembers image (given ++ step.credentials) := by
  obtain ⟨opts, backend, same, remembers⟩ := known
  cases step with
  | auth auth =>
    have next : (config.apply (.auth auth)).backend = .docker (opts.setAuth auth) := by
      simp only [RuntimeConfig.apply, backend, onDocker]
    exact ⟨opts.setAuth auth, next, same, remembers.setAuth auth⟩
  | pullStrategy strategy =>
    have next : (config.apply (.pullStrategy strategy)).backend =
        .docker (opts.setPullStrategy strategy) := by
      simp only [RuntimeConfig.apply, backend, onDocker]
    simp only [Step.credentials, List.append_nil]
    exact ⟨opts.setPullStrategy strategy, next, same, remembers.setPullStrategy strategy⟩
  | tag _ _ | tags _ | label _ | labels _ =>
    simp only [Step.credentials, List.append_nil]
    exact ⟨opts, backend, same, remembers⟩

theorem Remembers.applyAll {config : RuntimeConfig} {image : String} {given : List RegistryAuth}
    (known : config.Remembers image given) (steps : List Step) :
    (config.applyAll steps).Remembers image (given ++ steps.flatMap Step.credentials) := by
  induction steps generalizing config given with
  | nil =>
    rw [List.flatMap_nil, List.append_nil]
    exact known
  | cons step steps ih =>
    rw [List.flatMap_cons, ← List.append_assoc]
    exact ih (known.apply step)

theorem Remembers.check {config : RuntimeConfig} {image : String} {given : List RegistryAuth}
    (known : config.Remembers image given) (named : isBlankText image = false) :
    (BothSchemes given → config.check = .error .conflictingAuth) ∧
      (¬ BothSchemes given → config.check = .ok ()) := by
  obtain ⟨opts, backend, same, remembers⟩ := known
  rw [← remembers.conflict]
  simp only [RuntimeConfig.check, backend, same, named]
  constructor
  · intro noted
    simp [noted]
  · intro free
    simp [free]

-- Whatever the steps and their order, a description of a named image is refused for its
-- credentials exactly when both schemes were given, and it holds those given last.
theorem second_scheme_remembered {image : String} (named : isBlankText image = false)
    (steps : List Step) :
    let config := (ofBackend (.docker (.ofImage image))).applyAll steps
    let given := steps.flatMap Step.credentials
    (config.check = .error .conflictingAuth ↔ BothSchemes given) ∧
      (¬ BothSchemes given → config.check = .ok ()) ∧ config.credentials = given.getLast? := by
  intro config given
  have start : (ofBackend (.docker (.ofImage image))).Remembers image [] :=
    ⟨_, rfl, rfl, DockerOpts.remembers_ofImage image⟩
  have known : config.Remembers image given := start.applyAll steps
  obtain ⟨refused, passed⟩ := known.check named
  refine ⟨⟨?_, refused⟩, passed, ?_⟩
  · intro refusal
    apply Classical.byContradiction
    intro single
    rw [passed single] at refusal
    cases refusal
  · obtain ⟨opts, backend, _, remembers⟩ := known
    rw [credentials, backend]
    exact remembers.last

-- The last credentials are of the scheme before them, so neighbours alone show no conflict
-- at the end.
def mixedSchemes : List Step :=
  [.label "gpu", .auth (.basic "ci" "pw"), .tag "name" "lint", .auth (.ecr "eu" "id" "old"),
    .pullStrategy .never, .auth (.ecr "eu" "id" "new")]

theorem second_scheme_remembered_mixed : isBlankText "alpine" = false ∧
    ((ofBackend (.docker (.ofImage "alpine"))).applyAll mixedSchemes).check =
      .error .conflictingAuth ∧
    ((ofBackend (.docker (.ofImage "alpine"))).applyAll mixedSchemes).credentials =
      some (.ecr "eu" "id" "new") := by
  have named : isBlankText "alpine" = false := rfl
  obtain ⟨refused, _, held⟩ := second_scheme_remembered named mixedSchemes
  have both : BothSchemes (mixedSchemes.flatMap Step.credentials) :=
    ⟨⟨"ci", "pw", .head _⟩, ⟨"eu", "id", "new", .tail _ (.tail _ (.head _))⟩⟩
  exact ⟨named, refused.2 both, held⟩

end RuntimeConfig

end ControlPlane
