import ControlPlane.Proofs.Client.Session
-- The calls that a plane receives for one handle: its opening, any number of calls for
-- work, and at most one closing, which is the last.
namespace ControlPlane

def Plane.recorded {σ : Type} (p : Plane σ) : Plane (σ × List Call) where
  call := fun call state => ((p.call call state.1).1, (p.call call state.1).2, state.2 ++ [call])

def Client.recorded {σ : Type} (c : Client σ) : Client (σ × List Call) :=
  ⟨c.buildId, c.plane.recorded⟩

-- The calls of a runtime with this id, and whether it was closed by them.
inductive Lived (id : String) : List Call → Bool → Prop where
  | opened (request : Wire.OpenRequest) : Lived id [.opening request] false
  | worked {calls : List Call} (before : Lived id calls false) (call : Call)
      (working : call.isWork = true) (named : call.runtime? = some id) :
      Lived id (calls ++ [call]) false
  | closed {calls : List Call} (before : Lived id calls false) :
      Lived id (calls ++ [.closing ⟨id⟩]) true

def closings (calls : List Call) : Nat := calls.countP fun call => call.method == .closing

theorem closings_append (a b : List Call) : closings (a ++ b) = closings a + closings b :=
  List.countP_append

theorem closings_work {call : Call} (working : call.isWork = true) : closings [call] = 0 := by
  cases call with
  | opening => rfl
  | exec => rfl
  | transfer direction => cases direction <;> rfl
  | closing => cases working

theorem Lived.closings {id : String} {calls : List Call} {closed : Bool}
    (lived : Lived id calls closed) : closings calls = if closed then 1 else 0 := by
  induction lived with
  | opened request => rfl
  | worked before call working named ih => rw [closings_append, ih, closings_work working]; rfl
  | closed before ih => rw [closings_append, ih]; rfl

theorem Lived.closed_iff {id : String} {calls : List Call} {closed : Bool}
    (lived : Lived id calls closed) : closed = true ↔ ∃ request, Call.closing request ∈ calls := by
  cases lived with
  | opened request => simp
  | worked before call working named =>
    have none := before.closings
    refine iff_of_false (by decide) ?_
    rintro ⟨request, member⟩
    rcases List.mem_append.mp member with earlier | last
    · have closing : 0 < ControlPlane.closings _ := List.countP_pos_iff.mpr ⟨_, earlier, rfl⟩
      rw [none] at closing
      cases closing
    · rw [← List.mem_singleton.mp last] at working
      cases working
  | closed before => exact iff_of_true rfl ⟨_, List.mem_append_right _ (.head _)⟩

theorem Lived.acts {σ : Type} {p : Plane σ} {h after : Handle} {state next : σ}
    {calls sent : List Call} (lived : Lived h.id calls h.closed)
    (acts : Acts p h state after next sent) : Lived after.id (calls ++ sent) after.closed := by
  cases acts with
  | still => rwa [List.append_nil]
  | work call isOpen working named =>
    rw [isOpen] at lived
    have worked := lived.worked call working named
    rwa [← isOpen] at worked
  | close isOpen =>
    rw [isOpen] at lived
    exact lived.closed

namespace Client

variable {σ : Type}

def sentBy (c : Client (σ × List Call)) (s : Session (σ × List Call)) (m : Move) : List Call :=
  (c.step s m).state.2.drop s.state.2.length

def sentFor (c : Client (σ × List Call)) (n : Nat) :
    Session (σ × List Call) → List Move → List Call
  | _, [] => []
  | s, m :: moves =>
    (if m.about s (c.step s m) = some n then c.sentBy s m else []) ++
      sentFor c n (c.step s m) moves

end Client

theorem Acts.received {σ : Type} {p : Plane σ} {h after : Handle} {state next : σ × List Call}
    {sent : List Call} (acts : Acts p.recorded h state after next sent) :
    next.2 = state.2 ++ sent := by
  cases acts with
  | still => exact (List.append_nil _).symm
  | work => rfl
  | close => rfl

theorem Changes.received {σ : Type} {p : Plane σ} {s after : Session (σ × List Call)}
    {who : Option Nat} {sent : List Call} (changes : Changes p.recorded s after who sent) :
    after.state.2 = s.state.2 ++ sent := by
  cases changes with
  | still => exact (List.append_nil _).symm
  | unopened => rfl
  | opened => rfl
  | acted n slot found acts holder => exact acts.received

structure Accounted {σ : Type} (s : Session σ) (calls : Nat → List Call) : Prop where
  kept : ∀ n slot, s.slots[n]? = some slot → slot.handle.calls = calls n
  lived : ∀ n slot, s.slots[n]? = some slot → Lived slot.handle.id (calls n) slot.handle.closed
  others : ∀ n, s.slots.length ≤ n → calls n = []

theorem Acts.calls {σ : Type} {p : Plane σ} {h after : Handle} {state next : σ}
    {sent : List Call} (acts : Acts p h state after next sent) : after.calls = h.calls ++ sent := by
  cases acts with
  | still => exact (List.append_nil _).symm
  | work => rfl
  | close => rfl

theorem Accounted.opened {σ : Type} {s : Session σ} {calls : Nat → List Call}
    (accounted : Accounted s calls) (request : Wire.OpenRequest) (runtime : Wire.OpenResponse)
    (holder : Option Holder) (state : σ) :
    Accounted ⟨state, s.slots ++ [⟨⟨runtime, false, [.opening request]⟩, holder⟩]⟩
      fun n => calls n ++ if some s.slots.length = some n then [.opening request] else [] := by
  obtain ⟨kept, lived, others⟩ := accounted
  have older : ∀ n, n < s.slots.length →
      calls n ++ (if some s.slots.length = some n then [Call.opening request] else []) =
        calls n := by
    intro n below
    rw [if_neg (by rw [Option.some.injEq]; omega), List.append_nil]
  have first : calls s.slots.length ++
      (if some s.slots.length = some s.slots.length then [Call.opening request] else []) =
        [.opening request] := by
    rw [if_pos rfl, others _ (Nat.le_refl _), List.nil_append]
  refine ⟨fun n slot there => ?_, fun n slot there => ?_, fun n above => ?_⟩
  · rcases getElem?_append_new there with ⟨below, old⟩ | ⟨rfl, rfl⟩
    · rw [older n below]
      exact kept n slot old
    · exact first.symm
  · rcases getElem?_append_new there with ⟨below, old⟩ | ⟨rfl, rfl⟩
    · rw [older n below]
      exact lived n slot old
    · rw [first]
      exact .opened request
  · rw [List.length_append, List.length_singleton] at above
    rw [if_neg (by rw [Option.some.injEq]; omega), List.append_nil, others n (by omega)]

theorem Accounted.acted {σ : Type} {p : Plane σ} {s : Session σ} {calls : Nat → List Call}
    (accounted : Accounted s calls) {n : Nat} {slot : Slot} (found : s.slot? n = some slot)
    {h : Handle} {state : σ} {sent : List Call} (acts : Acts p slot.handle s.state h state sent)
    (holder : Option Holder) :
    Accounted (s.put n ⟨h, holder⟩ state)
      fun m => calls m ++ if some n = some m then sent else [] := by
  obtain ⟨kept, lived, others⟩ := accounted
  obtain ⟨there, _⟩ := Session.found found
  have below : n < s.slots.length := (List.getElem?_eq_some_iff.mp there).1
  refine ⟨fun m slot' there' => ?_, fun m slot' there' => ?_, fun m above => ?_⟩
  · rcases getElem?_set_cases there' with ⟨rfl, rfl⟩ | ⟨other, old⟩
    · rw [if_pos rfl, ← kept m slot there]
      exact acts.calls
    · rw [if_neg (by rwa [Option.some.injEq]), List.append_nil]
      exact kept m slot' old
  · rcases getElem?_set_cases there' with ⟨rfl, rfl⟩ | ⟨other, old⟩
    · rw [if_pos rfl]
      exact (lived m slot there).acts acts
    · rw [if_neg (by rwa [Option.some.injEq]), List.append_nil]
      exact lived m slot' old
  · simp only [Session.put, List.length_set] at above
    rw [if_neg (by rw [Option.some.injEq]; omega), List.append_nil, others m above]

theorem Accounted.changes {σ : Type} {p : Plane σ} {s after : Session σ} {who : Option Nat}
    {sent : List Call} {calls : Nat → List Call} (accounted : Accounted s calls)
    (changes : Changes p s after who sent) :
    Accounted after fun n => calls n ++ if who = some n then sent else [] := by
  cases changes with
  | still who =>
    obtain ⟨kept, lived, others⟩ := accounted
    exact ⟨by simpa using kept, by simpa using lived, by simpa using others⟩
  | unopened request error answered =>
    obtain ⟨kept, lived, others⟩ := accounted
    exact ⟨by simpa using kept, by simpa using lived, by simpa using others⟩
  | opened request runtime holder answered =>
    exact accounted.opened request runtime (some holder) _
  | acted n slot found acts holder => exact accounted.acted found acts holder

theorem Changes.gone {σ : Type} {p : Plane σ} {s after : Session σ} {who : Option Nat}
    {sent : List Call} (changes : Changes p s after who sent) {n : Nat} {h : Handle}
    (gone : s.slots[n]? = some ⟨h, none⟩) :
    after.slots[n]? = some ⟨h, none⟩ ∧ (if who = some n then sent else []) = [] := by
  cases changes with
  | still => exact ⟨gone, ite_self _⟩
  | unopened => exact ⟨gone, if_neg nofun⟩
  | opened =>
    have below : n < s.slots.length := (List.getElem?_eq_some_iff.mp gone).1
    refine ⟨?_, if_neg (by rw [Option.some.injEq]; omega)⟩
    rw [List.getElem?_append_left below, gone]
  | acted m slot found acts holder =>
    obtain ⟨there, held⟩ := Session.found found
    have other : m ≠ n := by
      rintro rfl
      rw [there] at gone
      cases gone
      cases held
    refine ⟨?_, if_neg (by rwa [Option.some.injEq])⟩
    rw [Session.put, List.getElem?_set_ne other, gone]

namespace Session

variable {σ : Type}

def unheard (state : σ) : Session (σ × List Call) := .start (state, [])

def plain (s : Session (σ × List Call)) : Session σ := ⟨s.state.1, s.slots⟩

end Session

namespace Client

variable {σ : Type} (c : Client σ)

theorem sentBy_recorded (s : Session (σ × List Call)) (m : Move) :
    Changes c.plane.recorded s (c.recorded.step s m) (m.about s (c.recorded.step s m))
      (c.recorded.sentBy s m) := by
  obtain ⟨sent, changes⟩ := step_changes c.recorded s m
  have same : c.recorded.sentBy s m = sent := by
    rw [sentBy, changes.received, List.drop_left]
  rw [same]
  exact changes

theorem accounted_steps (moves : List Move) (s : Session (σ × List Call)) (calls : Nat → List Call)
    (accounted : Accounted s calls) :
    Accounted (c.recorded.steps s moves) fun n => calls n ++ c.recorded.sentFor n s moves := by
  induction moves generalizing s calls with
  | nil => simpa [steps, sentFor] using accounted
  | cons m moves ih =>
    have later := ih _ _ (accounted.changes (sentBy_recorded c s m))
    simp only [sentFor, ← List.append_assoc]
    exact later

theorem accounted_run (state : σ) (moves : List Move) :
    Accounted (c.recorded.steps (.unheard state) moves)
      fun n => c.recorded.sentFor n (.unheard state) moves := by
  have start : Accounted (Session.unheard state) fun _ => [] := by
    refine ⟨fun n slot there => ?_, fun n slot there => ?_, fun _ _ => rfl⟩
    · cases there
    · cases there
  simpa only [List.nil_append] using accounted_steps c moves _ _ start

theorem gone_steps (moves : List Move) (s : Session (σ × List Call)) {n : Nat} {h : Handle}
    (gone : s.slots[n]? = some ⟨h, none⟩) :
    (c.recorded.steps s moves).slots[n]? = some ⟨h, none⟩ ∧ c.recorded.sentFor n s moves = [] := by
  induction moves generalizing s with
  | nil => exact ⟨gone, rfl⟩
  | cons m moves ih =>
    obtain ⟨stays, silent⟩ := (sentBy_recorded c s m).gone gone
    obtain ⟨later, nothing⟩ := ih _ stays
    refine ⟨later, ?_⟩
    rw [sentFor, silent, nothing, List.nil_append]

theorem sentFor_append (r : Client (σ × List Call)) (n : Nat) (a b : List Move)
    (s : Session (σ × List Call)) :
    r.sentFor n s (a ++ b) = r.sentFor n s a ++ r.sentFor n (r.steps s a) b := by
  induction a generalizing s with
  | nil => rfl
  | cons m a ih =>
    rw [List.cons_append, sentFor, sentFor, ih, List.append_assoc]
    rfl

theorem openRuntime_recorded (config : RuntimeConfig) (state : σ × List Call) :
    (c.recorded.openRuntime config state).1 = (c.openRuntime config state.1).1 ∧
      (c.recorded.openRuntime config state).2.1 = (c.openRuntime config state.1).2 := by
  unfold openRuntime
  cases config.check with
  | error e => exact ⟨rfl, rfl⟩
  | ok =>
    simp only [recorded, Plane.recorded]
    rcases c.plane.call (.opening ⟨c.buildId.text, .ofConfig config⟩) state.1 with ⟨_ | _, _⟩ <;>
      exact ⟨rfl, rfl⟩

theorem openRuntime_unrecorded (config : RuntimeConfig) (state : σ × List Call) :
    c.openRuntime config state.1 = ((c.recorded.openRuntime config state).1,
      (c.recorded.openRuntime config state).2.1) := by
  obtain ⟨answer, left⟩ := openRuntime_recorded c config state
  exact Prod.ext answer.symm left.symm

def unrecorded {α : Type} (done : α × Handle × (σ × List Call)) : α × Handle × σ :=
  (done.1, done.2.1, done.2.2.1)

theorem exec_recorded (opts : ExecOpts) (stdout stderr : Outlet) (h : Handle)
    (state : σ × List Call) :
    unrecorded (c.recorded.exec opts stdout stderr h state) =
      c.exec opts stdout stderr h state.1 := by
  unfold exec
  cases h.enter .exec with
  | error e => rfl
  | ok =>
    cases opts.check with
    | error e => rfl
    | ok =>
      simp only [send, recorded, Plane.recorded]
      rcases c.plane.call (.exec ⟨h.id, opts⟩) state.1 with ⟨_ | _, _⟩ <;> rfl

theorem transfer_recorded (direction : Direction) (src : String) (opts : TransferOpts)
    (h : Handle) (state : σ × List Call) :
    unrecorded (c.recorded.transfer direction src opts h state) =
      c.transfer direction src opts h state.1 := by
  unfold transfer
  cases h.enter direction.method with
  | error e => rfl
  | ok =>
    cases opts.check src with
    | error e => rfl
    | ok =>
      simp only [send, recorded, Plane.recorded]
      rcases c.plane.call (.transfer direction ⟨h.id, src, opts.dest, opts.excludes⟩) state.1 with
        ⟨_ | _, _⟩ <;> rfl

theorem close_recorded (h : Handle) (state : σ × List Call) :
    unrecorded (c.recorded.close h state) = c.close h state.1 := by
  unfold close
  cases h.enter .closing with
  | error e => rfl
  | ok =>
    simp only [send, recorded, Plane.recorded]
    rcases c.plane.call (.closing ⟨h.id⟩) state.1 with ⟨_ | _, _⟩ <;> rfl

theorem perform_recorded (a : Action) (h : Handle) (state : σ × List Call) :
    unrecorded (c.recorded.perform a h state) = c.perform a h state.1 := by
  cases a with
  | exec opts stdout stderr => exact exec_recorded c opts stdout stderr h state
  | capture opts =>
    have same := exec_recorded c opts (some (.ofSink .buffer)) (some (.ofSink .buffer)) h state
    simp only [perform, capture, ← same]
    rfl
  | transfer direction src opts => exact transfer_recorded c direction src opts h state
  | close => exact close_recorded c h state

theorem closeOnce_recorded (h : Handle) (state : σ × List Call) :
    unrecorded (c.recorded.closeOnce h state) = c.closeOnce h state.1 := by
  unfold closeOnce
  split
  · rfl
  · exact close_recorded c h state

theorem step_recorded (s : Session (σ × List Call)) (m : Move) :
    (c.recorded.step s m).plain = c.step s.plain m := by
  cases m with
  | openFor holder config =>
    have plain : c.openRuntime config s.plain.state = _ := openRuntime_unrecorded c config s.state
    simp only [step, openFor, plain]
    rcases c.recorded.openRuntime config s.state with ⟨_ | _, _⟩ <;> rfl
  | perform n a =>
    have slot : s.plain.slot? n = s.slot? n := rfl
    simp only [step, performAt, slot]
    cases s.slot? n with
    | none => rfl
    | some slot =>
      have same := perform_recorded c a slot.handle s.state
      simp only [show s.plain.state = s.state.1 from rfl, ← same]
      rfl
  | dropHandle n =>
    have slot : s.plain.slot? n = s.slot? n := rfl
    simp only [step, dropAt, slot]
    cases s.slot? n with
    | none => rfl
    | some slot =>
      have same := closeOnce_recorded c slot.handle s.state
      simp only [show s.plain.state = s.state.1 from rfl, ← same]
      split <;> rfl
  | closeGuarded n =>
    have slot : s.plain.slot? n = s.slot? n := rfl
    simp only [step, closeGuarded, slot]
    cases s.slot? n with
    | none => rfl
    | some slot =>
      have same := closeOnce_recorded c slot.handle s.state
      simp only [show s.plain.state = s.state.1 from rfl, ← same]
      rfl
  | unguard n =>
    have slot : s.plain.slot? n = s.slot? n := rfl
    simp only [step, Session.unguard, slot]
    cases s.slot? n <;> rfl

theorem steps_recorded (moves : List Move) (s : Session (σ × List Call)) :
    (c.recorded.steps s moves).plain = c.steps s.plain moves := by
  induction moves generalizing s with
  | nil => rfl
  | cons m moves ih =>
    have later := ih (c.recorded.step s m)
    rw [step_recorded] at later
    exact later

structure Orderly (c : Client σ) (s : Session σ) (n : Nat) (slot : Slot) : Prop where
  closed : slot.handle.closed = true → ∀ a, c.performAt n a s =
    (some (a.refused (.closed slot.handle.id a.method)), s)
  invalid : slot.handle.closed = false → ∀ a e, a.check = .error e →
    c.performAt n a s = (some (a.refused (.configuration e)), s)
  released : slot.holder = some .guard → ∀ m ∈ [Move.dropHandle n, Move.closeGuarded n],
    ∃ h, (c.step s m).slots[n]? = some ⟨h, none⟩ ∧ h.closed = true
  unguarded : (s.unguard n).2 = s.put n ⟨slot.handle, some .owner⟩ s.state

theorem performAt_refused (s : Session σ) {n : Nat} {slot : Slot} (found : s.slot? n = some slot)
    (a : Action) (e : ClientError)
    (refused : c.perform a slot.handle s.state = (a.refused e, slot.handle, s.state)) :
    c.performAt n a s = (some (a.refused e), s) := by
  obtain ⟨below, there⟩ := List.getElem?_eq_some_iff.mp (Session.found found).1
  have same : s.slots.set n slot = s.slots := by rw [← there, List.set_getElem_self]
  simp only [performAt, found, refused, Session.put, same]

theorem orderly (s : Session σ) {n : Nat} {slot : Slot} (found : s.slot? n = some slot) :
    Orderly c s n slot where
  closed isClosed a :=
    performAt_refused c s found a _ (perform_closed c slot.handle s.state isClosed a)
  invalid isOpen a e invalid :=
    performAt_refused c s found a _ (perform_invalid c slot.handle s.state isOpen a invalid)
  released guarded m release := by
    have below : n < s.slots.length := (List.getElem?_eq_some_iff.mp (Session.found found).1).1
    refine ⟨(c.closeOnce slot.handle s.state).2.1, ?_, closeOnce_closed c slot.handle s.state⟩
    simp only [List.mem_cons, List.not_mem_nil, or_false] at release
    rcases release with rfl | rfl
    · simp only [step, dropAt, found, guarded, Session.put, List.getElem?_set_self below]
    · simp only [step, closeGuarded, found, Session.put, List.getElem?_set_self below]
  unguarded := by simp only [Session.unguard, found]

def runOf (c : Client σ) (state : σ) (moves : List Move) : Session (σ × List Call) :=
  c.recorded.steps (.unheard state) moves

def received (c : Client σ) (state : σ) (moves : List Move) (n : Nat) : List Call :=
  c.recorded.sentFor n (.unheard state) moves

-- However a guard lets go of a runtime, its closing is sent once, then or before, and what
-- is done later does not change that.
theorem released_once (state : σ) (moves : List Move) {n : Nat} {slot : Slot}
    (found : (c.runOf state moves).slot? n = some slot) (guarded : slot.holder = some .guard)
    {m : Move} (release : m ∈ [Move.dropHandle n, Move.closeGuarded n]) (later : List Move) :
    closings (c.received state (moves ++ m :: later) n) = 1 := by
  obtain ⟨h, gone, isClosed⟩ := (orderly c.recorded _ found).released guarded m release
  have before := accounted_run c state (moves ++ [m])
  have split : moves ++ m :: later = (moves ++ [m]) ++ later := by simp
  have reached : c.recorded.steps (.unheard state) (moves ++ [m]) =
      c.recorded.step (c.runOf state moves) m := List.foldl_append
  rw [reached] at before
  have lived := before.lived n _ gone
  have silent := (gone_steps c later _ gone).2
  rw [received, split, sentFor_append, reached, silent, List.append_nil]
  have once := lived.closings
  rwa [isClosed] at once

theorem unowned (s : Session (σ × List Call)) (m : Move)
    (nobody : m.about s (c.recorded.step s m) = none) :
    ∀ call ∈ c.recorded.sentBy s m, ∃ request, call = .opening request := by
  have changes := sentBy_recorded c s m
  rw [nobody] at changes
  generalize c.recorded.sentBy s m = sent at changes
  generalize c.recorded.step s m = after at changes
  cases changes with
  | still => nofun
  | unopened request => exact fun call member => ⟨request, List.mem_singleton.mp member⟩

-- Over any plane and any run, the plane receives for a handle the calls that the handle
-- keeps: its runtime is opened, worked on and closed at most once, by calls that name it,
-- and the handle is closed exactly when the closing was sent.
theorem handle_lifecycle (state : σ) (moves : List Move) :
    (c.runOf state moves).plain = c.steps (.start state) moves ∧
    (∀ n slot, (c.runOf state moves).slots[n]? = some slot →
      slot.handle.calls = c.received state moves n ∧
      Lived slot.handle.id (c.received state moves n) slot.handle.closed ∧
      (slot.handle.closed = true ↔
        ∃ request, Call.closing request ∈ c.received state moves n)) ∧
    (∀ n slot, (c.runOf state moves).slot? n = some slot →
      Orderly c.recorded (c.runOf state moves) n slot ∧
      (slot.holder = some .guard → ∀ m ∈ [Move.dropHandle n, Move.closeGuarded n], ∀ later,
        closings (c.received state (moves ++ m :: later) n) = 1)) ∧
    (∀ holder config e, config.check = .error e →
      c.recorded.openFor holder config (c.runOf state moves) =
        (.error (.configuration e), c.runOf state moves)) ∧
    ∀ m : Move, m.about (c.runOf state moves) (c.recorded.step (c.runOf state moves) m) = none →
      ∀ call ∈ c.recorded.sentBy (c.runOf state moves) m, ∃ request, call = .opening request := by
  refine ⟨steps_recorded c moves _, fun n slot there => ?_, fun n slot found => ⟨?_, ?_⟩, ?_, ?_⟩
  · have accounted := accounted_run c state moves
    have lived := accounted.lived n slot there
    exact ⟨accounted.kept n slot there, lived, lived.closed_iff⟩
  · exact orderly c.recorded _ found
  · exact fun guarded m release later => released_once c state moves found guarded release later
  · intro holder config e invalid
    simp only [openFor, openRuntime, invalid]
  · exact fun m => unowned c _ m

end Client

end ControlPlane
