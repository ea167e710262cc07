import ControlPlane.Client.Guarded
import ControlPlane.Proofs.Client.Session
import ControlPlane.Proofs.Server.Replies
import ControlPlane.Proofs.Server.Site
import Mathlib.Data.List.Nodup
-- Client and server agree on what is open: after every step, registered are the runtimes
-- that were opened since all were last closed and whose closing was not sent.
namespace ControlPlane

namespace Site

variable {β : Type}

def plane (svc : Service β) (ids : Nat ↪ RuntimeId) (drains : Nat → Nat) (address : String) :
    Plane (Site β) :=
  Remote.plane (exchange svc ids drains address)

def client (svc : Service β) (ids : Nat ↪ RuntimeId) (drains : Nat → Nat) (address : String) :
    Client (Site β) :=
  ⟨svc.buildId, plane svc ids drains address⟩

variable {svc : Service β} {ids : Nat ↪ RuntimeId} {holds : RuntimeId → β → Prop}
  (keeps : svc.backend.Keeps holds) (drains : Nat → Nat) (address : String)
  {s : Site β} {marks : List (String × Bool)}

def received (svc : Service β) (ids : Nat ↪ RuntimeId) (drains : Nat → Nat) (call : Call)
    (s : Site β) : Http.Reply × Site β :=
  (s.drainTimes svc (drains s.requests)).serve svc ids
    (Remote.requestFor call.method (Remote.callBody call))

theorem call_received (call : Call) (s : Site β) :
    (plane svc ids drains address).call call s =
      (Remote.answerTo svc.words (received svc ids drains call s).1 call,
        (received svc ids drains call s).2) := by
  have replied : (exchange svc ids drains address).send
      (Remote.requestFor call.method (Remote.callBody call)) s =
      (.ok (received svc ids drains call s).1, (received svc ids drains call s).2) := rfl
  rw [plane, Remote.call_replied replied]
  rfl

theorem call_serves (call : Call) (s : Site β) :
    ((plane svc ids drains address).call call s).2 = (received svc ids drains call s).2 := by
  rw [call_received]

theorem call_answers (call : Call) (s : Site β) :
    ((plane svc ids drains address).call call s).1 =
      Remote.answerTo svc.words (received svc ids drains call s).1 call := by
  rw [call_received]

include keeps

theorem Agrees.call_work (agrees : Agrees ids holds s marks) (call : Call)
    (working : call.isWork = true) :
    Agrees ids holds ((plane svc ids drains address).call call s).2 marks := by
  rw [call_serves]
  refine (agrees.drainTimes keeps _).serve_work keeps call.method ?_ _
  cases call with
  | opening => cases working
  | exec => exact ⟨nofun, nofun⟩
  | transfer direction => cases direction <;> exact ⟨nofun, nofun⟩
  | closing => cases working

theorem Agrees.call_closing {before after : List (String × Bool)} {id : String}
    (agrees : Agrees ids holds s (before ++ (id, false) :: after)) :
    Agrees ids holds ((plane svc ids drains address).call (.closing ⟨id⟩) s).2
      (before ++ (id, true) :: after) := by
  rw [call_serves]
  exact (agrees.drainTimes keeps _).serve_closing keeps

theorem Agrees.call_opening (agrees : Agrees ids holds s marks) (request : Wire.OpenRequest) :
    (∃ e, ((plane svc ids drains address).call (.opening request) s).1 = .error e) ∧
        Agrees ids holds ((plane svc ids drains address).call (.opening request) s).2 marks ∨
      ∃ r, ((plane svc ids drains address).call (.opening request) s).1 = .ok r ∧
        Agrees ids holds ((plane svc ids drains address).call (.opening request) s).2
          (marks ++ [(r.runtimeId, false)]) := by
  rw [call_serves, call_answers]
  rcases (agrees.drainTimes keeps (drains s.requests)).serve_opening keeps
    (Remote.callBody (.opening request)) with ⟨refused, kept⟩ | ⟨r, reply, opened⟩
  · exact .inl ⟨Remote.answerTo_refused refused (.opening request), kept⟩
  · have replied : (received svc ids drains (.opening request) s).1 = Service.jsonReply r.toJson :=
      reply
    exact .inr ⟨r, by rw [replied, Remote.answerTo_opened], opened⟩

omit keeps in
theorem split_at {α : Type} {l : List α} {n : Nat} {a : α} (there : l[n]? = some a) :
    ∃ front rest, l = front ++ a :: rest ∧ ∀ b, l.set n b = front ++ b :: rest := by
  induction l generalizing n with
  | nil => cases there
  | cons c l ih =>
    cases n with
    | zero =>
      cases there
      exact ⟨[], l, rfl, fun b => rfl⟩
    | succ n =>
      obtain ⟨front, rest, same, set⟩ := ih there
      exact ⟨c :: front, rest, by rw [same]; rfl, fun b => by rw [List.set_cons_succ, set]; rfl⟩

def mark (h : Handle) : String × Bool := (h.id, h.closed)

theorem Agrees.acts {before after : List (String × Bool)} {h h' : Handle} {s' : Site β}
    {sent : List Call} (agrees : Agrees ids holds s (before ++ mark h :: after))
    (acts : Acts (plane svc ids drains address) h s h' s' sent) :
    Agrees ids holds s' (before ++ mark h' :: after) := by
  cases acts with
  | still => exact agrees
  | work call isOpen working named => exact agrees.call_work keeps drains address call working
  | close isOpen =>
    rw [mark, isOpen] at agrees
    exact agrees.call_closing keeps drains address

def marksOf (slots : List Slot) : List (String × Bool) := slots.map fun slot => mark slot.handle

theorem Agrees.changes {s after : Session (Site β)} {who : Option Nat} {sent : List Call}
    (agrees : Agrees ids holds s.state (marksOf s.slots))
    (changes : Changes (plane svc ids drains address) s after who sent) :
    Agrees ids holds after.state (marksOf after.slots) := by
  cases changes with
  | still => exact agrees
  | unopened request error answered =>
    rcases agrees.call_opening keeps drains address request with ⟨_, kept⟩ | ⟨r, opened, _⟩
    · dsimp only
      exact kept
    · cases answered.symm.trans opened
  | opened request runtime holder answered =>
    rcases agrees.call_opening keeps drains address request with ⟨⟨e, failed⟩, _⟩ | ⟨r, opened, new⟩
    · cases answered.symm.trans failed
    · cases answered.symm.trans opened
      dsimp only
      rw [marksOf, List.map_append]
      exact new
  | acted n slot found acts holder =>
    obtain ⟨front, rest, slots, set⟩ := split_at (Session.found found).1
    rw [marksOf, slots, List.map_append, List.map_cons] at agrees
    have acted := agrees.acts keeps drains address acts
    rw [marksOf, Session.put, set, List.map_append, List.map_cons]
    exact acted

theorem Agrees.runBody {α : Type} (body : Body α) {h : Handle}
    (agrees : Agrees ids holds s (marks ++ [mark h])) :
    Agrees ids holds ((client svc ids drains address).runBody body h s).2.2
      (marks ++ [mark ((client svc ids drains address).runBody body h s).2.1]) := by
  induction body generalizing h s with
  | ends ending => exact agrees
  | act action next ih =>
    obtain ⟨sent, acts⟩ := Client.perform_acts (client svc ids drains address) h s action
    exact ih _ (agrees.acts keeps drains address acts)
  | look next ih => exact ih h agrees

end Site

def Handle.closingSent (h : Handle) : Bool := h.calls.any fun call => call.method == .closing

theorem Acts.closingSent {σ : Type} {p : Plane σ} {h after : Handle} {state next : σ}
    {sent : List Call} (acts : Acts p h state after next sent) (told : h.closed = h.closingSent) :
    after.closed = after.closingSent := by
  cases acts with
  | still => exact told
  | work call isOpen working named =>
    have other : (call.method == .closing) = false := by
      cases call with
      | opening => rfl
      | exec => rfl
      | transfer direction => cases direction <;> rfl
      | closing => cases working
    rw [Handle.closingSent, Handle.sent, List.any_append, ← Handle.closingSent, ← told]
    simp [other]
  | close isOpen =>
    rw [Handle.closingSent, Handle.shut, List.any_append]
    exact (Bool.or_true _).symm

theorem Changes.closingSent {σ : Type} {p : Plane σ} {s after : Session σ} {who : Option Nat}
    {sent : List Call} (changes : Changes p s after who sent)
    (told : ∀ slot ∈ s.slots, slot.handle.closed = slot.handle.closingSent) :
    ∀ slot ∈ after.slots, slot.handle.closed = slot.handle.closingSent := by
  cases changes with
  | still => exact told
  | unopened => exact told
  | opened request runtime holder answered =>
    intro slot member
    rcases List.mem_append.mp member with old | last
    · exact told slot old
    · rw [List.mem_singleton.mp last]
      rfl
  | acted n slot found acts holder =>
    intro other member
    rcases List.mem_or_eq_of_mem_set member with old | rfl
    · exact told other old
    · exact acts.closingSent (told slot (List.mem_of_getElem? (Session.found found).1))

namespace Client

variable {σ α : Type} (c : Client σ)

theorem runBody_closingSent (body : Body α) (h : Handle) (state : σ)
    (told : h.closed = h.closingSent) :
    (c.runBody body h state).2.1.closed = (c.runBody body h state).2.1.closingSent := by
  induction body generalizing h state with
  | ends ending => exact told
  | act action next ih =>
    obtain ⟨sent, acts⟩ := perform_acts c h state action
    exact ih _ _ _ (acts.closingSent told)
  | look next ih => exact ih h h state told

end Client

-- The steps of clients and their server: a move of a build, work under a guard whatever it
-- does, and the closing of all runtimes by the server.
inductive Deed where
  | move (m : Move)
  | within {α : Type} (config : RuntimeConfig) (body : Body α)
  | drain

namespace Deed

variable {β : Type}

def apply (c : Client (Site β)) (svc : Service β) (s : Session (Site β)) : Deed → Session (Site β)
  | .move m => c.step s m
  | .within config body =>
    let done := c.withRuntime config body s.state
    ⟨done.2, s.slots ++ (done.1.handle.map fun h => ⟨h, none⟩).toList⟩
  | .drain => { s with state := s.state.drain svc }

end Deed

namespace Site

variable {β : Type}

structure Known (ids : Nat ↪ RuntimeId) (holds : RuntimeId → β → Prop)
    (s : Session (Site β)) : Prop where
  agrees : Agrees ids holds s.state (marksOf s.slots)
  told : ∀ slot ∈ s.slots, slot.handle.closed = slot.handle.closingSent

variable {svc : Service β} {ids : Nat ↪ RuntimeId} {holds : RuntimeId → β → Prop}
  (keeps : svc.backend.Keeps holds) (drains : Nat → Nat) (address : String)
  {s : Session (Site β)}

include keeps

theorem Agrees.guarded {α : Type} {s : Site β} {marks : List (String × Bool)} {h : Handle}
    (agrees : Agrees ids holds s (marks ++ [mark h])) (body : Body α)
    (told : h.closed = h.closingSent) :
    let ran := (client svc ids drains address).runBody body h s
    let closed := (client svc ids drains address).closeOnce ran.2.1 ran.2.2
    Agrees ids holds closed.2.2 (marks ++ [mark closed.2.1]) ∧
      closed.2.1.closed = closed.2.1.closingSent := by
  intro ran closed
  obtain ⟨sent, acts⟩ := Client.closeOnce_acts (client svc ids drains address) ran.2.1 ran.2.2
  have worked := agrees.runBody keeps drains address body
  have known := Client.runBody_closingSent (client svc ids drains address) body h s told
  exact ⟨worked.acts keeps drains address acts, acts.closingSent known⟩

theorem Known.withRuntime {α : Type} (known : Known ids holds s) (config : RuntimeConfig)
    (body : Body α) :
    Known ids holds (Deed.apply (client svc ids drains address) svc s (.within config body)) := by
  have opens := Client.openRuntime_opens (client svc ids drains address) s.state config
  simp only [Deed.apply, Client.withRuntime]
  generalize (client svc ids drains address).openRuntime config s.state = done at opens
  cases opens with
  | invalid e =>
    simp only [Option.map_none, Option.toList_none, List.append_nil]
    exact known
  | failed request e answered =>
    simp only [Option.map_none, Option.toList_none, List.append_nil, client]
    rcases known.agrees.call_opening keeps drains address request with ⟨_, kept⟩ | ⟨r, opened, _⟩
    · exact ⟨kept, known.told⟩
    · cases answered.symm.trans opened
  | opened request runtime answered =>
    rcases known.agrees.call_opening keeps drains address request with
      ⟨⟨e, failed⟩, _⟩ | ⟨r, opened, new⟩
    · cases answered.symm.trans failed
    · cases answered.symm.trans opened
      have marked : Agrees ids holds _
          (marksOf s.slots ++ [mark ⟨runtime, false, [.opening request]⟩]) := new
      obtain ⟨closed, told⟩ := marked.guarded keeps drains address body rfl
      refine ⟨?_, fun slot member => ?_⟩
      · rw [marksOf, List.map_append]
        exact closed
      · rcases List.mem_append.mp member with old | last
        · exact known.told slot old
        · rw [List.mem_singleton.mp last]
          exact told

theorem Known.apply (known : Known ids holds s) (deed : Deed) :
    Known ids holds (deed.apply (client svc ids drains address) svc s) := by
  cases deed with
  | move m =>
    obtain ⟨sent, changes⟩ := Client.step_changes (client svc ids drains address) s m
    exact ⟨known.agrees.changes keeps drains address changes, changes.closingSent known.told⟩
  | within config body => exact known.withRuntime keeps drains address config body
  | drain => exact ⟨known.agrees.drain keeps, known.told⟩

omit keeps in
theorem Known.start (state : β) : Known ids holds (.start (start state)) :=
  ⟨agrees_start state, nofun⟩

theorem Known.run (known : Known ids holds s) (deeds : List Deed) :
    Known ids holds (deeds.foldl (Deed.apply (client svc ids drains address) svc) s) := by
  induction deeds generalizing s with
  | nil => exact known
  | cons deed deeds ih => exact ih (known.apply keeps drains address deed)

omit keeps in
theorem Known.registered (known : Known ids holds s) : s.state.registry.ids =
    ((s.slots.drop s.state.fence).filter fun slot => !slot.handle.closingSent).map
      fun slot => ⟨slot.handle.id⟩ := by
  have same : (s.slots.drop s.state.fence).filter (fun slot => !slot.handle.closed) =
      (s.slots.drop s.state.fence).filter fun slot => !slot.handle.closingSent := by
    refine List.filter_congr fun slot member => ?_
    rw [known.told slot (List.mem_of_mem_drop member)]
  rw [known.agrees.registered, ← same, marksOf, ← List.map_drop, List.filter_map, List.map_map]
  rfl

omit keeps in
theorem Known.closed_unregistered (known : Known ids holds s) {slot : Slot}
    (member : slot ∈ s.slots) (closed : slot.handle.closed = true) :
    ⟨slot.handle.id⟩ ∉ s.state.registry.ids := by
  intro there
  rw [known.registered] at there
  obtain ⟨other, listed, same⟩ := List.mem_map.mp there
  obtain ⟨late, unsent⟩ := List.mem_filter.mp listed
  have distinct : (s.slots.map fun slot => slot.handle.id).Nodup := by
    have marks := known.agrees.distinct
    rwa [marksOf, List.map_map] at marks
  have equal : other = slot := List.inj_on_of_nodup_map distinct (List.mem_of_mem_drop late) member
    (RuntimeId.mk.inj same)
  rw [equal, ← known.told slot member, closed] at unsent
  cases unsent

end Site

-- A run of clients and a server with one of the backends, from the start. All runtimes may
-- also be closed between any two requests, those of work under a guard included.
def Deed.run (b : Installed) (buildId : BuildId) (words : Json.Words) (ids : Nat ↪ RuntimeId)
    (drains : Nat → Nat) (address : String) (deeds : List Deed) : Session (Site b.State) :=
  deeds.foldl
    (Deed.apply (Site.client ⟨buildId, b.backend, words⟩ ids drains address)
      ⟨buildId, b.backend, words⟩)
    (.start (.start b.start))

-- After every step of every run, registered are exactly the runtimes that were opened since
-- all were last closed and for which no closing was sent.
theorem registered_while_open (b : Installed) (buildId : BuildId) (words : Json.Words)
    (ids : Nat ↪ RuntimeId) (drains : Nat → Nat) (address : String) (deeds : List Deed) :
    let s := Deed.run b buildId words ids drains address deeds
    (s.state.registry.ids =
      ((s.slots.drop s.state.fence).filter fun slot => !slot.handle.closingSent).map
        fun slot => ⟨slot.handle.id⟩) ∧
    s.state.opened = s.slots.length ∧
    (∀ slot ∈ s.slots, slot.handle.closed = true → ⟨slot.handle.id⟩ ∉ s.state.registry.ids) ∧
    (∀ d ∈ s.state.drains, d.1 = d.2) ∧
    (Service.closeAll ⟨buildId, b.backend, words⟩ s.state.registry).1 =
      s.state.registry.ids.length := by
  intro s
  have known : Site.Known ids b.holds s :=
    (Site.Known.start b.start).run b.keeps drains address deeds
  refine ⟨known.registered, ?_, fun slot member closed => known.closed_unregistered member closed,
    known.agrees.drains, Service.closeAll_count b.keeps known.agrees.kept⟩
  rw [known.agrees.opened, Site.marksOf, List.length_map]

end ControlPlane
