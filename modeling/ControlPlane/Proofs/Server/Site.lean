import ControlPlane.Client.Remote
import ControlPlane.Proofs.Server.Registry
import ControlPlane.Proofs.Wire.RoundTrip
import ControlPlane.Server.Handler
import Mathlib.Logic.Embedding.Basic
-- A server as its clients reach it.
namespace ControlPlane

-- The server with what is counted about it: the requests that came, the runtimes that were
-- opened, how many of these had been opened when all were last closed, and for each time all
-- were closed the number reported beside the number registered just before.
structure Site (β : Type) where
  registry : Registry β
  requests : Nat
  opened : Nat
  fence : Nat
  drains : List (Nat × Nat)

namespace Site

variable {β : Type}

def start (state : β) : Site β := ⟨.start state, 0, 0, 0, []⟩

def drain (svc : Service β) (s : Site β) : Site β :=
  let closed := svc.closeAll s.registry
  { s with
    registry := closed.2
    fence := s.opened
    drains := s.drains ++ [(closed.1, s.registry.ids.length)] }

def drainTimes (svc : Service β) : Nat → Site β → Site β
  | 0, s => s
  | n + 1, s => drainTimes svc n (drain svc s)

def serve (svc : Service β) (ids : Nat ↪ RuntimeId) (request : Http.Request) (s : Site β) :
    Http.Reply × Site β :=
  let served := svc.handle (ids s.requests) request s.registry
  let opens := served.1.status = 200 ∧ Method.ofTarget? request.target = some .opening
  (served.1,
    { s with
      registry := served.2
      requests := s.requests + 1
      opened := if opens then s.opened + 1 else s.opened })

def exchange (svc : Service β) (ids : Nat ↪ RuntimeId) (drains : Nat → Nat) (address : String) :
    Exchange (Site β) where
  address := address
  words := svc.words
  send := fun request s =>
    let served := serve svc ids request (drainTimes svc (drains s.requests) s)
    (.ok served.1, served.2)

end Site

theorem ApiError.status_refuses (e : ApiError) : 400 ≤ e.status := by
  cases e with
  | executor error => cases error <;> simp [status, statusOf]
  | _ => simp [status]

theorem Method.ofTarget?_path (m : Method) : ofTarget? m.path = some m := by
  cases m <;> rfl

namespace Service

variable {β : Type} (svc : Service β)

theorem checkVersion_requestFor (m : Method) (v : Json.Value) :
    checkVersion (Remote.requestFor m v) = .ok () := rfl

theorem handle_requestFor (fresh : RuntimeId) (m : Method) (v : Json.Value) (s : Registry β) :
    svc.handle fresh (Remote.requestFor m v) s = svc.callMethod fresh v.bytes m s := by
  have target : Method.ofTarget? (Remote.requestFor m v).target = some m := m.ofTarget?_path
  have version := checkVersion_requestFor m v
  unfold handle
  rw [target]
  simp only [version]
  rfl

theorem readBody_bytes {α : Type} (m : Method) (read : Json.Value → Option α) (v : Json.Value) :
    svc.readBody m read v.bytes =
      match read v with
      | some a => .ok a
      | none => .error (.unreadable m (svc.words (m.name ++ " request") v.bytes)) := by
  cases value : read v <;> rw [readBody, Json.ofBytes?_bytes, Option.bind_some, value]

theorem callWith_registered {α ρ : Type} {method : Method} {read : Json.Value → Option α}
    {body : Bytes} {call : α → Registry β → Except ApiError ρ × Registry β}
    {shown : ρ → Http.Reply} {holds : RuntimeId → β → Prop} {s : Registry β} (kept : s.Kept holds)
    (calls : ∀ a, (call a s).2.ids = s.ids ∧ (call a s).2.Kept holds) :
    (svc.callWith method read body call shown s).2.ids = s.ids ∧
      (svc.callWith method read body call shown s).2.Kept holds := by
  unfold callWith
  split
  · exact ⟨rfl, kept⟩
  · exact calls _

end Service

namespace Site

variable {β : Type}

-- What the server keeps, given the id of each runtime that was opened, in order, and
-- whether its closing was sent: registered is what was opened since all runtimes were last
-- closed, without those whose closing was sent.
structure Agrees (ids : Nat ↪ RuntimeId) (holds : RuntimeId → β → Prop) (s : Site β)
    (marks : List (String × Bool)) : Prop where
  registered : s.registry.ids =
    ((marks.drop s.fence).filter fun m => !m.2).map fun m => ⟨m.1⟩
  kept : s.registry.Kept holds
  opened : s.opened = marks.length
  fence : s.fence ≤ s.opened
  distinct : (marks.map (·.1)).Nodup
  issued : ∀ m ∈ marks, ∃ k < s.requests, ids k = ⟨m.1⟩
  drains : ∀ d ∈ s.drains, d.1 = d.2

variable {svc : Service β} {ids : Nat ↪ RuntimeId} {holds : RuntimeId → β → Prop}
  (keeps : svc.backend.Keeps holds) {s : Site β} {marks : List (String × Bool)}

theorem agrees_start (state : β) : Agrees ids holds (start state) [] where
  registered := rfl
  kept := ⟨.nil, nofun⟩
  opened := rfl
  fence := Nat.le_refl _
  distinct := .nil
  issued := nofun
  drains := nofun

include keeps

theorem Agrees.drain (agrees : Agrees ids holds s marks) :
    Agrees ids holds (s.drain svc) marks where
  registered := by
    simp only [Site.drain, agrees.opened, List.drop_length]
    rfl
  kept := Service.closeAll_kept
  opened := agrees.opened
  fence := Nat.le_refl _
  distinct := agrees.distinct
  issued := agrees.issued
  drains := by
    intro d member
    rcases List.mem_append.mp member with old | last
    · exact agrees.drains d old
    · rw [List.mem_singleton.mp last]
      exact Service.closeAll_count keeps agrees.kept

theorem Agrees.drainTimes (n : Nat) (agrees : Agrees ids holds s marks) :
    Agrees ids holds (s.drainTimes svc n) marks := by
  induction n generalizing s with
  | zero => exact agrees
  | succ n ih => exact ih (agrees.drain keeps)

omit keeps in
theorem Agrees.fresh (agrees : Agrees ids holds s marks) :
    (ids s.requests).text ∉ marks.map (·.1) := by
  intro member
  obtain ⟨m, there, same⟩ := List.mem_map.mp member
  obtain ⟨k, before, issued⟩ := agrees.issued m there
  have equal : ids k = ids s.requests := by rw [issued, same]
  have : k = s.requests := ids.injective equal
  omega

omit keeps in
theorem Agrees.unregistered (agrees : Agrees ids holds s marks) :
    ids s.requests ∉ s.registry.ids := by
  intro member
  rw [agrees.registered] at member
  obtain ⟨m, there, same⟩ := List.mem_map.mp member
  have marked := List.mem_of_mem_drop (List.mem_filter.mp there).1
  exact agrees.fresh (List.mem_map.mpr ⟨m, marked, by rw [← same]⟩)

omit keeps in
theorem serve_other (m : Method) (other : m ≠ .opening) (v : Json.Value) :
    (s.serve svc ids (Remote.requestFor m v)).2 =
      { s with
        registry := (svc.callMethod (ids s.requests) v.bytes m s.registry).2
        requests := s.requests + 1 } := by
  have target : Method.ofTarget? (Remote.requestFor m v).target = some m := m.ofTarget?_path
  simp only [serve, Service.handle_requestFor, target, Option.some.injEq, other, and_false,
    if_false]

omit keeps in
theorem Agrees.work (agrees : Agrees ids holds s marks) {registry : Registry β}
    (same : registry.ids = s.registry.ids) (kept : registry.Kept holds) :
    Agrees ids holds { s with registry := registry, requests := s.requests + 1 } marks where
  registered := same.trans agrees.registered
  kept := kept
  opened := agrees.opened
  fence := agrees.fence
  distinct := agrees.distinct
  issued m member := by
    obtain ⟨k, before, issued⟩ := agrees.issued m member
    exact ⟨k, Nat.lt_succ_of_lt before, issued⟩
  drains := agrees.drains

omit keeps in
theorem Agrees.opens (agrees : Agrees ids holds s marks) {registry : Registry β} {id : String}
    (named : id = (ids s.requests).text) (registered : registry.ids = s.registry.ids ++ [⟨id⟩])
    (kept : registry.Kept holds) :
    Agrees ids holds
      { s with registry := registry, requests := s.requests + 1, opened := s.opened + 1 }
      (marks ++ [(id, false)]) where
  registered := by
    have early : s.fence ≤ marks.length := agrees.opened ▸ agrees.fence
    rw [registered, agrees.registered, List.drop_append_of_le_length early, List.filter_append,
      List.map_append]
    rfl
  kept := kept
  opened := by
    rw [List.length_append, ← agrees.opened]
    rfl
  fence := Nat.le_succ_of_le agrees.fence
  distinct := by
    rw [List.map_append, List.map_singleton, named]
    refine List.nodup_append.mpr ⟨agrees.distinct, by simp, fun id member other last => ?_⟩
    rw [List.mem_singleton.mp last]
    rintro rfl
    exact agrees.fresh member
  issued := by
    intro m member
    rcases List.mem_append.mp member with old | last
    · obtain ⟨k, earlier, issued⟩ := agrees.issued m old
      exact ⟨k, Nat.lt_succ_of_lt earlier, issued⟩
    · rw [List.mem_singleton.mp last, named]
      exact ⟨s.requests, Nat.lt_succ_self _, rfl⟩
  drains := agrees.drains

theorem Agrees.serve_work (agrees : Agrees ids holds s marks) (m : Method)
    (working : m ≠ .opening ∧ m ≠ .closing) (v : Json.Value) :
    Agrees ids holds (s.serve svc ids (Remote.requestFor m v)).2 marks := by
  rw [serve_other m working.1]
  have registered : (svc.callMethod (ids s.requests) v.bytes m s.registry).2.ids = s.registry.ids ∧
      (svc.callMethod (ids s.requests) v.bytes m s.registry).2.Kept holds := by
    cases m with
    | opening => exact absurd rfl working.1
    | closing => exact absurd rfl working.2
    | exec =>
      exact svc.callWith_registered agrees.kept fun request =>
        Service.exec_registered keeps agrees.kept request
    | importing =>
      exact svc.callWith_registered agrees.kept fun request =>
        Service.transfer_registered keeps agrees.kept .importing request
    | exporting =>
      exact svc.callWith_registered agrees.kept fun request =>
        Service.transfer_registered keeps agrees.kept .exporting request
  exact agrees.work registered.1 registered.2

def shutMark (id : String) (m : String × Bool) : String × Bool := if m.1 = id then (id, true) else m

omit keeps in
theorem map_shutMark {before after : List (String × Bool)} {id : String}
    (distinct : ((before ++ (id, false) :: after).map (·.1)).Nodup) :
    (before ++ (id, false) :: after).map (shutMark id) = before ++ (id, true) :: after := by
  rw [List.map_append, List.map_cons] at distinct
  obtain ⟨_, rest, apart⟩ := List.nodup_append.mp distinct
  have others : ∀ l : List (String × Bool), (∀ m ∈ l, m.1 ≠ id) → l.map (shutMark id) = l := by
    intro l other
    refine (List.map_congr_left fun m member => ?_).trans (List.map_id l)
    exact if_neg (other m member)
  rw [List.map_append, List.map_cons, others before, others after]
  · rw [shutMark, if_pos rfl]
  · rintro m member rfl
    exact (List.nodup_cons.mp rest).1 (List.mem_map.mpr ⟨m, member, rfl⟩)
  · intro m member
    exact apart m.1 (List.mem_map_of_mem member) id (.head _)

omit keeps in
theorem unshut_map_shutMark (id : String) (marks : List (String × Bool)) :
    (((marks.map (shutMark id)).filter fun m => !m.2).map fun m => (⟨m.1⟩ : RuntimeId)) =
      ((marks.filter fun m => !m.2).map fun m => (⟨m.1⟩ : RuntimeId)).filter (· ≠ ⟨id⟩) := by
  induction marks with
  | nil => rfl
  | cons m marks ih =>
    obtain ⟨other, closed⟩ := m
    by_cases same : other = id <;> cases closed <;> simp [shutMark, same, ih]

omit keeps in
theorem Agrees.closes {before after : List (String × Bool)} {id : String} {registry : Registry β}
    (agrees : Agrees ids holds s (before ++ (id, false) :: after))
    (registered : registry.ids = s.registry.ids.filter (· ≠ ⟨id⟩)) (kept : registry.Kept holds) :
    Agrees ids holds { s with registry := registry, requests := s.requests + 1 }
      (before ++ (id, true) :: after) := by
  have shut := map_shutMark agrees.distinct
  have names : (before ++ (id, true) :: after).map (·.1) =
      (before ++ (id, false) :: after).map (·.1) := by simp
  exact {
    registered := by rw [registered, agrees.registered, ← unshut_map_shutMark, List.map_drop, shut]
    kept := kept
    opened := by simpa using agrees.opened
    fence := agrees.fence
    distinct := names ▸ agrees.distinct
    issued := by
      intro m member
      have there : m.1 ∈ (before ++ (id, false) :: after).map (·.1) :=
        names ▸ List.mem_map_of_mem member
      obtain ⟨m', marked, same⟩ := List.mem_map.mp there
      obtain ⟨k, earlier, issued⟩ := agrees.issued m' marked
      exact ⟨k, Nat.lt_succ_of_lt earlier, by rw [issued, same]⟩
    drains := agrees.drains }

theorem Agrees.serve_closing {before after : List (String × Bool)} {id : String}
    (agrees : Agrees ids holds s (before ++ (id, false) :: after)) :
    Agrees ids holds
      (s.serve svc ids (Remote.requestFor .closing (Wire.CloseRequest.toJson ⟨id⟩))).2
      (before ++ (id, true) :: after) := by
  have body : svc.readBody .closing Wire.CloseRequest.ofJson?
      (Wire.CloseRequest.toJson ⟨id⟩).bytes = .ok ⟨id⟩ := by
    rw [Service.readBody_bytes, Wire.CloseRequest.ofJson?_toJson]
  obtain ⟨registered, kept⟩ := Service.close_registered keeps agrees.kept ⟨id⟩
  rw [serve_other .closing nofun]
  simp only [Service.callMethod, Service.callWith, body]
  exact agrees.closes registered kept

omit keeps in
theorem Agrees.refuses (agrees : Agrees ids holds s marks) (e : ApiError) {registry : Registry β}
    (same : registry.ids = s.registry.ids) (kept : registry.Kept holds) :
    Agrees ids holds
      { s with
        registry := registry
        requests := s.requests + 1
        opened := if (Service.errorReply e).status = 200 then s.opened + 1 else s.opened }
      marks := by
  have refuses : 400 ≤ (Service.errorReply e).status := e.status_refuses
  rw [if_neg (by omega)]
  exact agrees.work same kept

theorem Agrees.serve_opening (agrees : Agrees ids holds s marks) (v : Json.Value) :
    (400 ≤ (s.serve svc ids (Remote.requestFor .opening v)).1.status ∧
        Agrees ids holds (s.serve svc ids (Remote.requestFor .opening v)).2 marks) ∨
      ∃ r : Wire.OpenResponse,
        (s.serve svc ids (Remote.requestFor .opening v)).1 = Service.jsonReply r.toJson ∧
          Agrees ids holds (s.serve svc ids (Remote.requestFor .opening v)).2
            (marks ++ [(r.runtimeId, false)]) := by
  have target : Method.ofTarget? (Remote.requestFor .opening v).target = some .opening :=
    Method.opening.ofTarget?_path
  simp only [serve, Service.handle_requestFor, target, and_true, Service.callMethod,
    Service.callWith]
  cases svc.readBody .opening Wire.OpenRequest.ofJson? v.bytes with
  | error e => exact .inl ⟨e.status_refuses, agrees.refuses e rfl agrees.kept⟩
  | ok request =>
    obtain ⟨answered, kept⟩ := Service.openRuntime_registers keeps agrees.kept (ids s.requests)
      agrees.unregistered request
    rcases answered with ⟨⟨e, failed⟩, same⟩ | ⟨⟨r, opened, named⟩, registered⟩
    · simp only [failed, Service.replyWith]
      exact .inl ⟨e.status_refuses, agrees.refuses e same kept⟩
    · simp only [opened, Service.replyWith]
      exact .inr ⟨r, rfl, agrees.opens named (named ▸ registered) kept⟩

end Site

end ControlPlane
