import ControlPlane.Proofs.Server.Checks
-- The first check that a request fails decides what it is told, and a request that fails
-- one leaves the server as it was. That no operation fails after it has begun to act
-- takes an invariant: the backend holds every runtime that is registered.
namespace ControlPlane

def Registry.Held (s : Registry Mock.Histories) : Prop :=
  ∀ id, s.records.has id = true → s.state.has id = true

theorem Mock.record_held {id : RuntimeId} {t : Histories} (held : t.has id = true)
    (entry : String) : record id entry t = (.ok (), t.modify id (· ++ [entry])) := by
  rw [record, if_pos held]

namespace Service

section

variable {β : Type}

-- What a request comes to. The first check that fails refuses it, and nothing happens. If
-- none fails, the operation of its call takes place and succeeds.
inductive Served (svc : Service β) (fresh : RuntimeId) (s : Registry β) (request : Http.Request) :
    Http.Reply × Registry β → Prop where
  | refused {status : Nat} {e : ApiError}
      (failed : Check.first (svc.checks s request) = some (status, e))
      (told : (errorReply e).status = status) : Served svc fresh s request (errorReply e, s)
  | performed {call : Call} {outcome : call.Outcome} {after : Registry β}
      (passed : Check.first (svc.checks s request) = none) (read : request.call? = some call)
      (done : svc.perform fresh call s = (.ok outcome, after))
      (told : (replyTo call outcome).status = 200) :
      Served svc fresh s request (replyTo call outcome, after)

inductive Step where
  | request (fresh : RuntimeId) (request : Http.Request)
  | closeAll

def step (svc : Service β) (s : Registry β) : Step → Registry β
  | .request fresh request => (svc.handle fresh request s).2
  | .closeAll => (svc.closeAll s).2

def after (svc : Service β) (start : β) (steps : List Step) : Registry β :=
  steps.foldl svc.step (.start start)

inductive Performed (svc : Service β) (fresh : RuntimeId) (s : Registry β) (call : Call)
    (holds : Registry β → Prop) : Prop where
  | refused {status : Nat} {e : ApiError}
      (failed : Check.first (svc.callChecks s call) = some (status, e)) (told : e.status = status)
      (done : svc.perform fresh call s = (.error e, s))
  | performed {outcome : call.Outcome} {after : Registry β}
      (passed : Check.first (svc.callChecks s call) = none)
      (done : svc.perform fresh call s = (.ok outcome, after)) (held : holds after)

end

variable (buildId : BuildId) (words : Json.Words)

def recording : Service Mock.Histories := ⟨buildId, Mock.backend, words⟩

section

variable {s : Registry Mock.Histories} (held : s.Held) (fresh : RuntimeId)

include held

theorem performed_opening (request : Wire.OpenRequest) :
    (recording buildId words).Performed fresh s (.opening request) Registry.Held := by
  by_cases own : request.buildId = buildId.text
  · have first : Check.first ((recording buildId words).callChecks s (.opening request)) =
        Check.first [.ofConfig request.opts.toConfig] := by
      simp only [callChecks, recording, own, if_true, Check.first_passed]
    cases config : request.opts.toConfig with
    | error e =>
      refine .refused (first.trans (Check.first_invalid config)) rfl ?_
      simp only [perform, openRuntime, recording, own, ne_eq, not_true, if_false, config]
    | ok config' =>
      have opened : (recording buildId words).perform fresh (.opening request) s =
          (.ok ⟨fresh.text, "/mock/" ++ fresh.text, Mock.machine⟩,
            ⟨s.records.put fresh ⟨"/mock/" ++ fresh.text, config'.displayName⟩,
              s.state.put fresh []⟩) := by
        simp only [perform, openRuntime, recording, own, ne_eq, not_true, if_false, config]
        rfl
      refine .performed (first.trans (Check.first_valid config)) opened fun id registered => ?_
      rw [RuntimeTable.has_put_iff] at registered ⊢
      exact registered.imp_right (held id)
  · have foreign : Check.first ((recording buildId words).callChecks s (.opening request)) =
        some (403, .foreignBuild request.buildId) := by
      simp only [callChecks, recording, own, if_false, Check.first_failed]
    refine .refused foreign rfl ?_
    simp only [perform, openRuntime, recording, own, ne_eq, not_false_eq_true, if_true]

theorem performed_exec (request : Wire.ExecRequest) :
    (recording buildId words).Performed fresh s (.exec request) Registry.Held := by
  by_cases isOpen : s.isOpen request.runtimeId = true
  · have first : Check.first ((recording buildId words).callChecks s (.exec request)) =
        Check.first [.ofConfig request.opts.check] := Check.first_open isOpen _
    cases valid : request.opts.check with
    | error e =>
      refine .refused (first.trans (Check.first_invalid valid)) rfl ?_
      simp only [perform, exec, accept, isOpen, if_true, valid]
    | ok _ =>
      have ran : (recording buildId words).perform fresh (.exec request) s =
          (.ok (Mock.exec ⟨request.runtimeId⟩ request.opts s.state).1,
            ⟨s.records, (Mock.exec ⟨request.runtimeId⟩ request.opts s.state).2⟩) := by
        simp only [perform, exec, accept, isOpen, if_true, valid]
        rfl
      exact .performed (first.trans (Check.first_valid valid)) ran fun id registered =>
        Mock.keeps.exec _ _ _ id (held id registered)
  · refine .refused (Check.first_unknown isOpen _) rfl ?_
    simp only [perform, exec, accept, if_neg isOpen]

theorem performed_transfer (direction : Direction) (request : Wire.TransferRequest) :
    (recording buildId words).Performed fresh s (.transfer direction request) Registry.Held := by
  by_cases isOpen : s.isOpen request.runtimeId = true
  · have first : Check.first ((recording buildId words).callChecks s (.transfer direction request)) =
        Check.first [.ofConfig (request.opts.check request.src)] := Check.first_open isOpen _
    cases valid : request.opts.check request.src with
    | error e =>
      refine .refused (first.trans (Check.first_invalid valid)) rfl ?_
      simp only [perform, transfer, recording, Mock.backend, Mock.transfer, isOpen, if_true, valid]
    | ok _ =>
      have recorded := Mock.record_held (held _ isOpen)
        (direction.method.name ++ " " ++ request.src ++ " -> " ++ request.opts.dest)
      have moved : (recording buildId words).perform fresh (.transfer direction request) s =
          (.ok (), ⟨s.records, s.state.modify ⟨request.runtimeId⟩ (· ++
            [direction.method.name ++ " " ++ request.src ++ " -> " ++ request.opts.dest])⟩) := by
        simp only [perform, transfer, recording, Mock.backend, Mock.transfer, isOpen, if_true,
          valid, recorded]
      refine .performed (first.trans (Check.first_valid valid)) moved fun id registered => ?_
      rw [RuntimeTable.has_modify]
      exact held id registered
  · refine .refused (Check.first_unknown isOpen _) rfl ?_
    simp only [perform, transfer, if_neg isOpen]

theorem performed_closing (request : Wire.CloseRequest) :
    (recording buildId words).Performed fresh s (.closing request) Registry.Held := by
  by_cases isOpen : s.isOpen request.runtimeId = true
  · -- The record is gone when the backend is asked, which cannot refuse a runtime it holds.
    have closed : (recording buildId words).perform fresh (.closing request) s =
        (.ok (), ⟨s.records.erase ⟨request.runtimeId⟩, s.state.erase ⟨request.runtimeId⟩⟩) := by
      simp only [perform, close, recording, Mock.backend, Mock.close, isOpen, if_true,
        held _ isOpen]
    refine .performed (Check.first_open isOpen []) closed fun id registered => ?_
    rw [RuntimeTable.has_erase_iff] at registered ⊢
    exact ⟨registered.1, held id registered.2⟩
  · refine .refused (Check.first_unknown isOpen _) rfl ?_
    simp only [perform, close, if_neg isOpen]

theorem performed (call : Call) :
    (recording buildId words).Performed fresh s call Registry.Held := by
  cases call with
  | opening request => exact performed_opening buildId words held fresh request
  | exec request => exact performed_exec buildId words held fresh request
  | transfer direction request => exact performed_transfer buildId words held fresh direction request
  | closing request => exact performed_closing buildId words held fresh request

theorem served (request : Http.Request) :
    (recording buildId words).Served fresh s request ((recording buildId words).handle fresh request s) ∧
      ((recording buildId words).handle fresh request s).2.Held := by
  rcases (recording buildId words).handle_checks fresh s request with
    ⟨status, e, failed, told, same⟩ | ⟨passed, call, read, same⟩
  · rw [same]
    have first : Check.first ((recording buildId words).checks s request) = some (status, e) := by
      rw [checks, Check.first_append, failed]
      rfl
    exact ⟨.refused first told, held⟩
  · have own : Check.first ((recording buildId words).checks s request) =
        Check.first ((recording buildId words).callChecks s call) := by
      rw [checks, Check.first_append, passed, read]
      simp
    rw [same]
    cases performed buildId words held fresh call with
    | refused failed told done =>
      rw [done]
      exact ⟨.refused (own.trans failed) told, held⟩
    | performed passed done held =>
      rw [done]
      exact ⟨.performed (own.trans passed) read done (replyTo_status call _), held⟩

end

theorem held_after (steps : List Step) : ((recording buildId words).after [] steps).Held := by
  have run : ∀ s : Registry Mock.Histories, s.Held →
      (steps.foldl (recording buildId words).step s).Held := by
    induction steps with
    | nil => exact fun s held => held
    | cons step steps ih =>
      intro s held
      refine ih _ ?_
      cases step with
      | request fresh request => exact (served buildId words held fresh request).2
      | closeAll => exact nofun
  exact run _ nofun

-- After any requests, the first check that a request fails decides what it is told, and a
-- request that is not answered with success leaves the server exactly as it was.
theorem refusals (fresh : RuntimeId) (steps : List Step) (request : Http.Request) :
    (recording buildId words).Served fresh ((recording buildId words).after [] steps) request
        ((recording buildId words).handle fresh request ((recording buildId words).after [] steps)) ∧
      (((recording buildId words).handle fresh request
          ((recording buildId words).after [] steps)).1.status ≠ 200 →
        ((recording buildId words).handle fresh request ((recording buildId words).after [] steps)).2 =
          (recording buildId words).after [] steps) ∧
      ∀ text, decimal? text = some protocolVersion ↔
        IsOne text.toList ∨ ∃ rest, text.toList = '+' :: rest ∧ IsOne rest := by
  have served := (served buildId words (held_after buildId words steps) fresh request).1
  refine ⟨served, fun failed => ?_, decimal?_eq_one⟩
  generalize (recording buildId words).handle fresh request _ = result at served failed ⊢
  cases served with
  | refused => rfl
  | performed _ _ _ told => exact absurd told failed

def recorder : Service Mock.Histories := recording ⟨"build"⟩ Json.wordless

def opensOne : List Step :=
  [.request ⟨"rt-1"⟩ (Remote.requestFor .opening
    (Wire.OpenRequest.toJson ⟨"build", .host, .empty, []⟩))]

theorem refusals_unknown :
    (recorder.after [] opensOne).isOpen "rt-1" = true ∧
      (recorder.handle ⟨"rt-2"⟩ (Remote.requestFor .closing (Wire.CloseRequest.toJson ⟨"rt-9"⟩))
        (recorder.after [] opensOne)).2 = recorder.after [] opensOne := by
  have unknown : (recorder.handle ⟨"rt-2"⟩ (Remote.requestFor .closing
      (Wire.CloseRequest.toJson ⟨"rt-9"⟩)) (recorder.after [] opensOne)).1.status = 404 := by
    decide +kernel
  have other : (recorder.handle ⟨"rt-2"⟩ (Remote.requestFor .closing
      (Wire.CloseRequest.toJson ⟨"rt-9"⟩)) (recorder.after [] opensOne)).1.status ≠ 200 := by
    rw [unknown]
    decide
  exact ⟨by decide +kernel,
    (refusals ⟨"build"⟩ Json.wordless ⟨"rt-2"⟩ opensOne _).2.1 other⟩

end Service

end ControlPlane
