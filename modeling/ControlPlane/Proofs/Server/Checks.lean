import Mathlib.Data.List.Induction
import ControlPlane.Proofs.Server.Transparency
-- The checks of a request, one by one and in their order.
namespace ControlPlane

theorem digit_range {c : Char} (digit : c.isDigit = true) : 48 ≤ c.toNat ∧ c.toNat ≤ 57 := by
  simp only [Char.isDigit, Bool.and_eq_true, decide_eq_true_eq, ge_iff_le] at digit
  exact digit

theorem value_concat (digits : List Char) (c : Char) :
    Nat.ofDigitChars 10 (digits ++ [c]) 0 = 10 * Nat.ofDigitChars 10 digits 0 + (c.toNat - 48) := by
  rw [Nat.ofDigitChars_append]
  rfl

theorem value_eq_zero {digits : List Char} (all : ∀ c ∈ digits, c.isDigit = true) :
    Nat.ofDigitChars 10 digits 0 = 0 ↔ ∀ c ∈ digits, c = '0' := by
  induction digits using List.reverseRecOn with
  | nil => exact iff_of_true rfl (List.forall_mem_nil _)
  | append_singleton digits c ih =>
    obtain ⟨low, _⟩ := digit_range (all c (by simp))
    rw [value_concat, Nat.add_eq_zero_iff, Nat.mul_eq_zero, ih fun d front => all d (by simp [front])]
    have last : c.toNat - 48 = 0 ↔ c = '0' :=
      ⟨fun zero => Char.toNat_inj.1 (show c.toNat = 48 by omega), by rintro rfl; rfl⟩
    simp [last, or_imp, forall_and]

def IsOne (digits : List Char) : Prop := ∃ zeros, digits = zeros ++ ['1'] ∧ ∀ c ∈ zeros, c = '0'

theorem value_eq_one {digits : List Char} (all : ∀ c ∈ digits, c.isDigit = true) :
    Nat.ofDigitChars 10 digits 0 = 1 ↔ IsOne digits := by
  rcases List.eq_nil_or_concat' digits with rfl | ⟨front, c, rfl⟩
  · simp [IsOne]
  · obtain ⟨low, _⟩ := digit_range (all c (by simp))
    have zeros := value_eq_zero fun d member => all d (List.mem_append_left [c] member)
    have last : c.toNat = 49 ↔ c = '1' := ⟨fun one => Char.toNat_inj.1 one, by rintro rfl; rfl⟩
    rw [value_concat]
    constructor
    · intro one
      exact ⟨front, by rw [last.1 (by omega)], zeros.1 (by omega)⟩
    · rintro ⟨front', same, all⟩
      obtain ⟨rfl, one⟩ := List.append_inj' same rfl
      rw [zeros.2 all, last.2 (List.singleton_inj.1 one)]

theorem IsOne.digits {digits : List Char} (one : IsOne digits) :
    digits ≠ [] ∧ ∀ c ∈ digits, c.isDigit = true := by
  obtain ⟨zeros, rfl, all⟩ := one
  refine ⟨by simp, fun c member => ?_⟩
  rcases List.mem_append.1 member with front | last
  · rw [all c front]
    rfl
  · rw [List.mem_singleton.1 last]
    rfl

theorem IsOne.no_sign {rest : List Char} : ¬ IsOne ('+' :: rest) := by
  intro one
  have digit := one.digits.2 '+' (.head _)
  cases digit

-- The number one is written with a one, zeros in front of it and a plus sign before them.
-- The zeros and the sign may be missing.
theorem decimal?_eq_one (text : String) : decimal? text = some 1 ↔
    IsOne text.toList ∨ ∃ rest, text.toList = '+' :: rest ∧ IsOne rest := by
  have read : ∀ digits : List Char, (if (digits.isEmpty || !digits.all Char.isDigit) = true then none
      else some (Nat.ofDigitChars 10 digits 0)) = some 1 ↔ IsOne digits := by
    intro digits
    constructor
    · intro one
      split at one
      · cases one
      · rename_i all
        simp only [Bool.or_eq_true, Bool.not_eq_true', not_or, Bool.not_eq_false] at all
        exact (value_eq_one (List.all_eq_true.1 all.2)).1 (Option.some.inj one)
    · intro one
      obtain ⟨some, all⟩ := one.digits
      rw [if_neg, (value_eq_one all).2 one]
      simp [some, List.all_eq_true.2 all]
  unfold decimal?
  split
  · rename_i rest begins
    rw [read, begins]
    simp [IsOne.no_sign]
  · rename_i plain
    rw [read]
    refine ⟨.inl, ?_⟩
    rintro (one | ⟨rest, begins, _⟩)
    · exact one
    · exact absurd begins (plain rest)

structure Check where
  status : Nat
  refusal : Option ApiError

namespace Check

def failure (check : Check) : Option (Nat × ApiError) := check.refusal.map (check.status, ·)

def first (checks : List Check) : Option (Nat × ApiError) := checks.findSome? failure

def ofConfig {α : Type} (result : Except ConfigError α) : Check :=
  ⟨400, match result with
    | .ok _ => none
    | .error e => some (.executor (.config e))⟩

end Check

def Method.readCall (body : Bytes) : Method → Option Call
  | .opening => ((Json.ofBytes? body).bind Wire.OpenRequest.ofJson?).map .opening
  | .exec => ((Json.ofBytes? body).bind Wire.ExecRequest.ofJson?).map .exec
  | .importing =>
    ((Json.ofBytes? body).bind Wire.TransferRequest.ofJson?).map (.transfer .importing)
  | .exporting =>
    ((Json.ofBytes? body).bind Wire.TransferRequest.ofJson?).map (.transfer .exporting)
  | .closing => ((Json.ofBytes? body).bind Wire.CloseRequest.ofJson?).map .closing

namespace Http.Request

variable (request : Http.Request)

def method? : Option Method := Method.ofTarget? request.target

def call? : Option Call :=
  request.body.bind fun body => request.method?.bind (Method.readCall body)

def pathCheck : Check :=
  ⟨404, if request.method? = none then some (.noEndpoint request.target) else none⟩

def verbCheck : Check := ⟨405, if request.verb = "POST" then none else some .wrongVerb⟩

def versionCheck : Check :=
  ⟨400, match request.header? protocolHeader with
    | none => some .noVersion
    | some value =>
      if decimal? (trim value) = some 1 then none else some (.wrongVersion (trim value))⟩

def readCheck : Check := ⟨400, if request.body = none then some .unread else none⟩

def bodyCheck (words : Json.Words) : Check :=
  ⟨400, if request.call? = none then
      request.method?.bind fun m =>
        request.body.map fun body => .unreadable m (words (m.name ++ " request") body)
    else none⟩

def checks (words : Json.Words) : List Check :=
  [request.pathCheck, request.verbCheck, request.versionCheck, request.readCheck,
    request.bodyCheck words]

end Http.Request

namespace Registry

variable {β : Type}

def openCheck (s : Registry β) (id : String) : Check :=
  ⟨404, if s.isOpen id then none else some (.unknownRuntime id)⟩

end Registry

namespace Service

variable {β : Type}

def callChecks (svc : Service β) (s : Registry β) : Call → List Check
  | .opening request =>
    [⟨403, if request.buildId = svc.buildId.text then none
        else some (.foreignBuild request.buildId)⟩,
      .ofConfig request.opts.toConfig]
  | .exec request => [s.openCheck request.runtimeId, .ofConfig request.opts.check]
  | .transfer _ request =>
    [s.openCheck request.runtimeId, .ofConfig (request.opts.check request.src)]
  | .closing request => [s.openCheck request.runtimeId]

def checks (svc : Service β) (s : Registry β) (request : Http.Request) : List Check :=
  request.checks svc.words ++ request.call?.toList.flatMap (svc.callChecks s)

theorem callMethod_readCall (svc : Service β) (fresh : RuntimeId) (body : Bytes) (m : Method)
    (s : Registry β) : svc.callMethod fresh body m s =
      match m.readCall body with
      | none => (errorReply (.unreadable m (svc.words (m.name ++ " request") body)), s)
      | some call => (replyWith (replyTo call) (svc.perform fresh call s).1,
          (svc.perform fresh call s).2) := by
  cases m with
  | opening =>
    simp only [callMethod, callWith, readBody, Method.readCall]
    cases (Json.ofBytes? body).bind Wire.OpenRequest.ofJson? <;> rfl
  | exec =>
    simp only [callMethod, callWith, readBody, Method.readCall]
    cases (Json.ofBytes? body).bind Wire.ExecRequest.ofJson? <;> rfl
  | importing =>
    simp only [callMethod, callWith, readBody, Method.readCall]
    cases (Json.ofBytes? body).bind Wire.TransferRequest.ofJson? <;> rfl
  | exporting =>
    simp only [callMethod, callWith, readBody, Method.readCall]
    cases (Json.ofBytes? body).bind Wire.TransferRequest.ofJson? <;> rfl
  | closing =>
    simp only [callMethod, callWith, readBody, Method.readCall]
    cases (Json.ofBytes? body).bind Wire.CloseRequest.ofJson? <;> rfl

end Service

namespace Check

theorem first_append (a b : List Check) : first (a ++ b) = (first a).or (first b) :=
  List.findSome?_append

@[simp]
theorem first_passed (status : Nat) (rest : List Check) :
    first (⟨status, none⟩ :: rest) = first rest := rfl

@[simp]
theorem first_failed (status : Nat) (e : ApiError) (rest : List Check) :
    first (⟨status, some e⟩ :: rest) = some (status, e) := rfl

variable {α β : Type} {s : Registry β} {id : String}

theorem first_open (isOpen : s.isOpen id = true) (rest : List Check) :
    first (s.openCheck id :: rest) = first rest := by
  rw [Registry.openCheck, isOpen]
  rfl

theorem first_unknown (unknown : ¬ s.isOpen id = true) (rest : List Check) :
    first (s.openCheck id :: rest) = some (404, .unknownRuntime id) := by
  rw [Registry.openCheck, if_neg unknown]
  rfl

theorem first_valid {result : Except ConfigError α} {a : α} (valid : result = .ok a) :
    first [ofConfig result] = none := by
  rw [valid]
  rfl

theorem first_invalid {result : Except ConfigError α} {e : ConfigError}
    (invalid : result = .error e) : first [ofConfig result] = some (400, .executor (.config e)) := by
  rw [invalid]
  rfl

end Check

namespace Service

variable {β : Type}

theorem checkVersion_refusal (request : Http.Request) :
    checkVersion request = .ok () ∧ request.versionCheck = ⟨400, none⟩ ∨
      ∃ e, checkVersion request = .error e ∧ request.versionCheck = ⟨400, some e⟩ ∧
        e.status = 400 := by
  unfold checkVersion Http.Request.versionCheck
  cases request.header? protocolHeader with
  | none => exact .inr ⟨_, rfl, rfl, rfl⟩
  | some value =>
    dsimp only
    by_cases one : decimal? (trim value) = some 1
    · exact .inl ⟨if_pos one, by rw [if_pos one]⟩
    · exact .inr ⟨_, if_neg one, by rw [if_neg one], rfl⟩

-- Every request goes through the same checks first. The call in one that passes them is made.
theorem handle_checks (svc : Service β) (fresh : RuntimeId) (s : Registry β)
    (request : Http.Request) :
    (∃ status e, Check.first (request.checks svc.words) = some (status, e) ∧ e.status = status ∧
        svc.handle fresh request s = (errorReply e, s)) ∨
      Check.first (request.checks svc.words) = none ∧ ∃ call, request.call? = some call ∧
        svc.handle fresh request s = (replyWith (replyTo call) (svc.perform fresh call s).1,
          (svc.perform fresh call s).2) := by
  unfold handle Http.Request.checks
  cases path : Method.ofTarget? request.target with
  | none =>
    have refused : request.pathCheck = ⟨404, some (.noEndpoint request.target)⟩ := by
      simp [Http.Request.pathCheck, Http.Request.method?, path]
    exact .inl ⟨404, _, by rw [refused, Check.first_failed], rfl, rfl⟩
  | some m =>
    have found : request.pathCheck = ⟨404, none⟩ := by
      simp [Http.Request.pathCheck, Http.Request.method?, path]
    rw [found, Check.first_passed]
    dsimp only
    by_cases verb : request.verb = "POST"
    · rw [Http.Request.verbCheck, if_pos verb, Check.first_passed, if_neg (not_not.2 verb)]
      rcases checkVersion_refusal request with ⟨checked, passed⟩ | ⟨e, checked, refused, told⟩
      · rw [passed, Check.first_passed, checked]
        dsimp only
        cases sent : request.body with
        | none =>
          rw [Http.Request.readCheck, if_pos sent, Check.first_failed]
          exact .inl ⟨400, _, rfl, rfl, rfl⟩
        | some body =>
          rw [Http.Request.readCheck, if_neg (by simp [sent]), Check.first_passed]
          dsimp only
          rw [callMethod_readCall]
          have same : request.call? = m.readCall body := by
            simp [Http.Request.call?, Http.Request.method?, path, sent]
          cases read : m.readCall body with
          | none =>
            have refused : request.bodyCheck svc.words =
                ⟨400, some (.unreadable m (svc.words (m.name ++ " request") body))⟩ := by
              simp [Http.Request.bodyCheck, Http.Request.method?, path, sent, same, read]
            exact .inl ⟨400, _, by rw [refused, Check.first_failed], rfl, rfl⟩
          | some call =>
            have passed : request.bodyCheck svc.words = ⟨400, none⟩ := by
              simp [Http.Request.bodyCheck, same, read]
            exact .inr ⟨by rw [passed]; rfl, call, same.trans read, rfl⟩
      · rw [refused, Check.first_failed, checked]
        exact .inl ⟨400, e, rfl, told, rfl⟩
    · rw [Http.Request.verbCheck, if_neg verb, Check.first_failed, if_pos verb]
      exact .inl ⟨405, _, rfl, rfl, rfl⟩

end Service

end ControlPlane
