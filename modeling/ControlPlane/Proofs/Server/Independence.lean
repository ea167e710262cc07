import ControlPlane.Proofs.Client.Handle
import ControlPlane.Proofs.Server.Refusals
-- Runtimes do not get in each other's way. What a request says and does is decided by
-- what is kept for the runtime that it names, and it changes nothing else, so that
-- requests for different runtimes may be answered in either order.
namespace ControlPlane

structure Cell (S V C : Type) where
  see : S → V
  alter : C → S → S
  keep : C
  alter_keep : ∀ s, alter keep s = s

namespace Cell

variable {S V W C D ρ σ : Type}

-- What an operation says, and the change that it makes to a cell, is decided by what it sees
-- there. It does nothing else.
def Confined (cell : Cell S V C) (op : S → ρ × S) : Prop :=
  ∃ (answer : V → ρ) (change : V → C),
    ∀ s, op s = (answer (cell.see s), cell.alter (change (cell.see s)) s)

structure Apart (first : Cell S V C) (second : Cell S W D) : Prop where
  see_alter : ∀ d s, first.see (second.alter d s) = first.see s
  see_alter' : ∀ c s, second.see (first.alter c s) = second.see s
  alter_comm : ∀ c d s, second.alter d (first.alter c s) = first.alter c (second.alter d s)

variable {cell : Cell S V C} {op next : S → ρ × S}

theorem confined_alter (cell : Cell S V C) (a : ρ) (c : C) :
    cell.Confined fun s => (a, cell.alter c s) := ⟨fun _ => a, fun _ => c, fun _ => rfl⟩

theorem confined_refused (cell : Cell S V C) (a : ρ) : cell.Confined fun s => (a, s) := by
  refine ⟨fun _ => a, fun _ => cell.keep, fun s => ?_⟩
  rw [cell.alter_keep]

theorem Confined.congr (confined : cell.Confined op) (same : ∀ s, next s = op s) :
    cell.Confined next := by
  obtain rfl : next = op := funext same
  exact confined

theorem Confined.told (confined : cell.Confined op) (tell : ρ → σ) :
    cell.Confined fun s => (tell (op s).1, (op s).2) := by
  obtain ⟨answer, change, same⟩ := confined
  refine ⟨fun v => tell (answer v), change, fun s => ?_⟩
  dsimp only
  rw [same s]

theorem Confined.guard (first : cell.Confined op) (second : cell.Confined next)
    (test : V → Bool) :
    cell.Confined fun s => if test (cell.see s) = true then op s else next s := by
  obtain ⟨answer, change, same⟩ := first
  obtain ⟨answer', change', same'⟩ := second
  refine ⟨fun v => if test v = true then answer v else answer' v,
    fun v => if test v = true then change v else change' v, fun s => ?_⟩
  dsimp only
  split
  · exact same s
  · exact same' s

theorem Apart.see_confined {first : Cell S V C} {second : Cell S W D}
    (apart : first.Apart second) (confined : second.Confined op) (s : S) :
    first.see (op s).2 = first.see s := by
  obtain ⟨answer, change, same⟩ := confined
  rw [same s]
  exact apart.see_alter _ s

theorem Apart.symm {first : Cell S V C} {second : Cell S W D} (apart : first.Apart second) :
    second.Apart first :=
  ⟨apart.see_alter', apart.see_alter, fun c d s => (apart.alter_comm d c s).symm⟩

-- Neither operation sees what the other did, and their changes commute.
theorem Apart.confined_comm {first : Cell S V C} {second : Cell S W D} {next : S → σ × S}
    (apart : first.Apart second) (confined : first.Confined op) (confined' : second.Confined next)
    (s : S) : (op (next s).2).1 = (op s).1 ∧ (next (op s).2).1 = (next s).1 ∧
      (next (op s).2).2 = (op (next s).2).2 := by
  have seen := apart.see_confined confined' s
  have seen' := apart.symm.see_confined confined s
  obtain ⟨answer, change, same⟩ := confined
  obtain ⟨answer', change', same'⟩ := confined'
  rw [same (next s).2, same' (op s).2, seen, seen', same s, same' s]
  exact ⟨rfl, rfl, apart.alter_comm _ _ s⟩

end Cell

def RuntimeTable.cell {γ : Type} (id : RuntimeId) :
    Cell (RuntimeTable γ) (Option γ) (γ → Option γ) :=
  ⟨fun t => t.get? id, fun change t => t.edit id change, some, fun t => t.edit_some id⟩

namespace Registry

variable {γ ρ : Type}

def cell (id : RuntimeId) : Cell (Registry (RuntimeTable γ)) (Option Record × Option γ)
    ((Record → Option Record) × (γ → Option γ)) where
  see s := (s.records.get? id, s.state.get? id)
  alter change s := ⟨s.records.edit id change.1, s.state.edit id change.2⟩
  keep := (some, some)
  alter_keep s := by rw [RuntimeTable.edit_some, RuntimeTable.edit_some]

theorem cell_apart {id other : RuntimeId} (apart : id ≠ other) :
    (cell (γ := γ) id).Apart (cell other) where
  see_alter d s := by
    simp only [cell, RuntimeTable.get?_edit_of_ne _ apart]
  see_alter' c s := by
    simp only [cell, RuntimeTable.get?_edit_of_ne _ apart.symm]
  alter_comm c d s := by
    simp only [cell, RuntimeTable.edit_comm _ apart]

theorem confined_work {id : RuntimeId} {work : RuntimeTable γ → ρ × RuntimeTable γ}
    (confined : (RuntimeTable.cell id).Confined work) (record : Record → Option Record) :
    (cell id).Confined fun s =>
      ((work s.state).1, ⟨s.records.edit id record, (work s.state).2⟩) := by
  obtain ⟨answer, change, same⟩ := confined
  refine ⟨fun v => answer v.2, fun v => (record, change v.2), fun s => ?_⟩
  dsimp only
  rw [same s.state]
  rfl

theorem confined_ifOpen {id : String}
    {op : Registry (RuntimeTable γ) → ρ × Registry (RuntimeTable γ)}
    (confined : (cell ⟨id⟩).Confined op) (a : ρ) :
    (cell ⟨id⟩).Confined fun s => if s.isOpen id = true then op s else (a, s) :=
  confined.guard (Cell.confined_refused _ a) fun v => v.1.isSome

theorem confined_told {id : String}
    {work : RuntimeTable γ → Except ExecutorError Unit × RuntimeTable γ}
    (confined : (RuntimeTable.cell ⟨id⟩).Confined work) (record : Record → Option Record) :
    (cell ⟨id⟩).Confined fun s =>
      if s.isOpen id = true then
        ((work s.state).1.mapError ApiError.executor,
          ⟨s.records.edit ⟨id⟩ record, (work s.state).2⟩)
      else (.error (.unknownRuntime id), s) :=
  confined_ifOpen ((confined_work confined record).told _) _

end Registry

-- A backend that keeps a table, and of it looks at the runtime of an operation alone.
structure Backend.Confined {γ : Type} (b : Backend (RuntimeTable γ)) : Prop where
  openRuntime : ∀ fresh config t id, id ≠ fresh →
    (b.openRuntime fresh config t).2.get? id = t.get? id
  exec : ∀ id opts, (RuntimeTable.cell id).Confined (b.exec id opts)
  transfer : ∀ direction id src opts,
    (RuntimeTable.cell id).Confined (b.transfer direction id src opts)
  close : ∀ id, (RuntimeTable.cell id).Confined (b.close id)

namespace Mock

theorem confined_record (id : RuntimeId) (entry : String) :
    (RuntimeTable.cell id).Confined (record id entry) := by
  let append (entries : List String) := some (entries ++ [entry])
  have recorded := Cell.confined_alter (RuntimeTable.cell id)
    (.ok () : Except ExecutorError Unit) append
  refine (recorded.guard (Cell.confined_refused _ (.error (.unknownRuntime id.text)))
    Option.isSome).congr fun t => ?_
  rw [record, RuntimeTable.modify_eq_edit]
  rfl

def echoed (opts : ExecOpts) : Except ExecutorError Unit → Run
  | .error e => .refused e
  | .ok () => ⟨[.start, .stdout (bytesOf ("mock-exec: " ++ opts.commandLine ++ "\n"))], .ok 0⟩

theorem confined : backend.Confined where
  openRuntime fresh config t id apart := RuntimeTable.get?_put_of_ne t apart []
  exec id opts := by
    cases valid : opts.check with
    | error e =>
      refine (Cell.confined_refused _ (.refused (.config e))).congr fun t => ?_
      simp only [backend, exec, valid]
    | ok _ =>
      have recorded := confined_record id ("exec " ++ opts.commandLine)
      refine (recorded.told (echoed opts)).congr fun t => ?_
      simp only [backend, exec, valid]
      rcases record id ("exec " ++ opts.commandLine) t with ⟨e | _, t'⟩ <;> rfl
  transfer direction id src opts := by
    cases valid : opts.check src with
    | error e =>
      refine (Cell.confined_refused _ (.error (.config e))).congr fun t => ?_
      simp only [backend, transfer, valid]
    | ok _ =>
      refine (confined_record id
        (direction.method.name ++ " " ++ src ++ " -> " ++ opts.dest)).congr fun t => ?_
      simp only [backend, transfer, valid]
  close id := by
    have erased := Cell.confined_alter (RuntimeTable.cell (γ := List String) id)
      (.ok () : Except ExecutorError Unit) fun _ => none
    refine (erased.guard (Cell.confined_refused _ (.error (.unknownRuntime id.text)))
      Option.isSome).congr fun t => ?_
    simp only [backend, close, RuntimeTable.erase_eq_edit]
    rfl

end Mock

def Http.Request.runtime? (request : Http.Request) : Option RuntimeId :=
  request.call?.bind fun call => call.runtime?.map .mk

namespace Service

section

variable {γ : Type} {svc : Service (RuntimeTable γ)} (confined : svc.backend.Confined)

include confined

theorem confined_exec (request : Wire.ExecRequest) :
    (Registry.cell ⟨request.runtimeId⟩).Confined (svc.exec request) := by
  cases valid : request.opts.check with
  | error e =>
    refine (Registry.confined_ifOpen (Cell.confined_refused _ (.error (.executor (.config e))))
      (.error (.unknownRuntime request.runtimeId))).congr fun s => ?_
    rw [exec, accept, valid]
    cases s.isOpen request.runtimeId <;> rfl
  | ok _ =>
    refine (Registry.confined_ifOpen ((Registry.confined_work (confined.exec _ request.opts)
      some).told .ok) (.error (.unknownRuntime request.runtimeId))).congr fun s => ?_
    rw [exec, accept, valid, RuntimeTable.edit_some]
    cases s.isOpen request.runtimeId <;> rfl

theorem confined_transfer (direction : Direction) (request : Wire.TransferRequest) :
    (Registry.cell ⟨request.runtimeId⟩).Confined (svc.transfer direction request) := by
  refine (Registry.confined_told (confined.transfer direction _ request.src request.opts) some).congr
    fun s => ?_
  rw [transfer, RuntimeTable.edit_some]
  rcases svc.backend.transfer direction ⟨request.runtimeId⟩ request.src request.opts s.state with
    ⟨e | _, state⟩ <;> rfl

theorem confined_close (request : Wire.CloseRequest) :
    (Registry.cell ⟨request.runtimeId⟩).Confined (svc.close request) := by
  refine (Registry.confined_told (confined.close _) fun _ => none).congr fun s => ?_
  simp only [close, RuntimeTable.erase_eq_edit]
  rcases svc.backend.close ⟨request.runtimeId⟩ s.state with ⟨e | _, state⟩ <;> rfl

theorem confined_perform (fresh : RuntimeId) {call : Call} {id : String}
    (named : call.runtime? = some id) :
    (Registry.cell ⟨id⟩).Confined (svc.perform fresh call) := by
  cases call with
  | opening => cases named
  | exec request =>
    cases named
    exact confined_exec confined request
  | transfer direction request =>
    cases named
    exact confined_transfer confined direction request
  | closing request =>
    cases named
    exact confined_close confined request

theorem confined_handle (fresh : RuntimeId) {request : Http.Request} {id : RuntimeId}
    (named : request.runtime? = some id) :
    (Registry.cell id).Confined (svc.handle fresh request) := by
  cases first : Check.first (request.checks svc.words) with
  | some failure =>
    refine (Cell.confined_refused _ (errorReply failure.2)).congr fun s => ?_
    rcases svc.handle_checks fresh s request with ⟨status, e, failed, _, same⟩ | ⟨passed, _⟩
    · cases first.symm.trans failed
      exact same
    · cases first.symm.trans passed
  | none =>
    obtain ⟨call, read, inside⟩ := Option.bind_eq_some_iff.1 named
    obtain ⟨text, runtime, rfl⟩ := Option.map_eq_some_iff.1 inside
    refine ((confined_perform confined fresh runtime).told (replyWith (replyTo call))).congr
      fun s => ?_
    rcases svc.handle_checks fresh s request with ⟨status, e, failed, _⟩ | ⟨_, call', read', same⟩
    · cases first.symm.trans failed
    · cases read.symm.trans read'
      exact same

theorem openRuntime_others (fresh : RuntimeId) (request : Wire.OpenRequest)
    (s : Registry (RuntimeTable γ)) {id : RuntimeId} (old : id ≠ fresh) :
    (Registry.cell id).see (svc.openRuntime fresh request s).2 = (Registry.cell id).see s := by
  unfold openRuntime
  split
  · rfl
  · cases request.opts.toConfig with
    | error e => rfl
    | ok config =>
      dsimp only
      split
      · have others := confined.openRuntime fresh config s.state id old
        generalize svc.backend.openRuntime fresh config s.state = answer at others ⊢
        rcases answer with ⟨e | opened, state⟩
        · exact Prod.ext rfl others
        · exact Prod.ext (RuntimeTable.get?_put_of_ne _ old _) others
      · rfl

theorem handle_others (fresh : RuntimeId) (request : Http.Request)
    (s : Registry (RuntimeTable γ)) {id : RuntimeId} (unnamed : request.runtime? ≠ some id)
    (old : ∀ opening, request.call? = some (.opening opening) → id ≠ fresh) :
    (Registry.cell id).see (svc.handle fresh request s).2 = (Registry.cell id).see s := by
  cases named : request.runtime? with
  | some other =>
    have apart : id ≠ other := fun same => unnamed (same ▸ named)
    exact (Registry.cell_apart apart).see_confined (confined_handle confined fresh named) s
  | none =>
    rcases svc.handle_checks fresh s request with ⟨_, _, _, _, same⟩ | ⟨_, call, read, same⟩
    · rw [same]
    · rw [same]
      cases call with
      | opening opening => exact openRuntime_others confined fresh opening s (old opening read)
      | _ => simp [Http.Request.runtime?, read, Call.runtime?] at named

-- A request is told the same before and after a run of requests for other runtimes, and the
-- run comes to the same.
theorem handle_past_others (fresh : RuntimeId) {request : Http.Request} {id : RuntimeId}
    (named : request.runtime? = some id) {steps : List Step}
    (others : ∀ step ∈ steps, ∃ fresh other other', step = .request fresh other ∧
      other.runtime? = some other' ∧ id ≠ other') (s : Registry (RuntimeTable γ)) :
    (svc.handle fresh request (steps.foldl svc.step s)).1 = (svc.handle fresh request s).1 ∧
      (svc.handle fresh request (steps.foldl svc.step s)).2 =
        steps.foldl svc.step (svc.handle fresh request s).2 := by
  induction steps generalizing s with
  | nil => exact ⟨rfl, rfl⟩
  | cons step steps ih =>
    obtain ⟨fresh', other, other', rfl, named', apart⟩ := others _ (.head _)
    obtain ⟨told, _, same⟩ := (Registry.cell_apart apart).confined_comm
      (confined_handle confined fresh named) (confined_handle confined fresh' named') s
    obtain ⟨toldLater, sameLater⟩ :=
      ih (fun step later => others step (List.mem_cons_of_mem _ later))
        (svc.step s (.request fresh' other))
    rw [List.foldl_cons, List.foldl_cons, toldLater, sameLater]
    exact ⟨told, congrArg (steps.foldl svc.step) same.symm⟩

end

variable (buildId : BuildId) (words : Json.Words)

-- In whatever state the server is, two requests that name different runtimes are answered the
-- same in either order and leave the same records and histories. No request changes the
-- record or the history of a runtime that it neither names nor opens.
theorem runtimes_independent (s : Registry Mock.Histories) :
    (∀ (first second : Http.Request) (id other fresh fresh' : RuntimeId),
      first.runtime? = some id → second.runtime? = some other → id ≠ other →
        ((recording buildId words).handle fresh first
            ((recording buildId words).handle fresh' second s).2).1 =
          ((recording buildId words).handle fresh first s).1 ∧
        ((recording buildId words).handle fresh' second
            ((recording buildId words).handle fresh first s).2).1 =
          ((recording buildId words).handle fresh' second s).1 ∧
        ((recording buildId words).handle fresh' second
            ((recording buildId words).handle fresh first s).2).2 =
          ((recording buildId words).handle fresh first
            ((recording buildId words).handle fresh' second s).2).2) ∧
    ∀ (request : Http.Request) (id fresh : RuntimeId), request.runtime? ≠ some id →
      (∀ opening, request.call? = some (.opening opening) → id ≠ fresh) →
        ((recording buildId words).handle fresh request s).2.records.get? id = s.records.get? id ∧
          ((recording buildId words).handle fresh request s).2.state.get? id = s.state.get? id := by
  have confined : (recording buildId words).backend.Confined := Mock.confined
  constructor
  · intro first second id other fresh fresh' named named' apart
    exact (Registry.cell_apart apart).confined_comm (confined_handle confined fresh named)
      (confined_handle confined fresh' named') s
  · intro request id fresh unnamed old
    exact Prod.mk.inj (handle_others confined fresh request s unnamed old)

def opens (id : RuntimeId) : Step :=
  .request id (Remote.requestFor .opening (Wire.OpenRequest.toJson ⟨"build", .host, .empty, []⟩))

def opensTwo : List Step := [opens ⟨"rt-1"⟩, opens ⟨"rt-2"⟩]

def closesFirst : Http.Request :=
  Remote.requestFor .closing (Wire.CloseRequest.toJson ⟨"rt-1"⟩)

def runsSecond : Http.Request :=
  Remote.requestFor .exec (Wire.ExecRequest.toJson ⟨"rt-2", .ofName "make"⟩)

theorem runtimes_independent_opened :
    closesFirst.runtime? = some ⟨"rt-1"⟩ ∧ runsSecond.runtime? = some ⟨"rt-2"⟩ ∧
      (recorder.handle ⟨"rt-3"⟩ runsSecond
          (recorder.handle ⟨"rt-3"⟩ closesFirst (recorder.after [] opensTwo)).2).2 =
        (recorder.handle ⟨"rt-3"⟩ closesFirst
          (recorder.handle ⟨"rt-3"⟩ runsSecond (recorder.after [] opensTwo)).2).2 ∧
      (recorder.handle ⟨"rt-3"⟩ closesFirst (recorder.after [] opensTwo)).2.state.get? ⟨"rt-2"⟩ =
        some [] := by
  have first : closesFirst.runtime? = some ⟨"rt-1"⟩ := by decide +kernel
  have second : runsSecond.runtime? = some ⟨"rt-2"⟩ := by decide +kernel
  have held : (recorder.after [] opensTwo).state.get? ⟨"rt-2"⟩ = some [] := by decide +kernel
  have independent :=
    runtimes_independent ⟨"build"⟩ Json.wordless (recorder.after [] opensTwo)
  refine ⟨first, second, (independent.1 _ _ _ _ ⟨"rt-3"⟩ ⟨"rt-3"⟩ first second (by decide)).2.2, ?_⟩
  have others := (independent.2 closesFirst ⟨"rt-2"⟩ ⟨"rt-3"⟩ (by rw [first]; decide)
    fun _ _ => by decide).2
  unfold recorder at others held ⊢
  exact others.trans held

end Service

end ControlPlane
