import ControlPlane.Proofs.Server.Registry
import ControlPlane.Server.Workers
import Mathlib.Data.List.Nodup
import Mathlib.Data.List.Perm.Basic
-- What holds of commands and closings that run side by side, in whatever order their
-- steps are made: of the locks, of the runtimes, of the commands, and of their numbers.
namespace ControlPlane

theorem takeFirst_some {α : Type} {test : α → Bool} {l others : List α} {a : α}
    (taken : takeFirst test l = some (a, others)) : test a = true ∧ l.Perm (a :: others) := by
  induction l generalizing a others with
  | nil => cases taken
  | cons b l ih =>
    rw [takeFirst] at taken
    split at taken
    · rename_i passes
      cases taken
      exact ⟨passes, .refl _⟩
    · obtain ⟨⟨c, rest⟩, first, same⟩ := Option.map_eq_some_iff.1 taken
      cases same
      obtain ⟨passes, perm⟩ := ih first
      exact ⟨passes, (perm.cons b).trans (.swap ..)⟩

theorem takeFirst_none {α : Type} {test : α → Bool} {l : List α} (none : takeFirst test l = none) :
    ∀ a ∈ l, test a = false := by
  induction l with
  | nil => nofun
  | cons b l ih =>
    rw [takeFirst] at none
    split at none
    · cases none
    · rename_i fails
      intro a member
      rcases List.mem_cons.1 member with rfl | later
      · exact Bool.eq_false_iff.2 fails
      · exact ih (Option.map_eq_none_iff.1 none) a later

namespace Workers

variable {β : Type} {svc : Service β} {w after : Workers β} {step : WorkerStep}

inductive Moves (svc : Service β) (w : Workers β) : WorkerStep → Workers β → Prop where
  | opening {fresh : RuntimeId} {request : Wire.OpenRequest} (new : fresh ∉ w.issued) :
      Moves svc w (.opening fresh request) { w with
        registry := (svc.openRuntime fresh request w.registry).2
        issued := fresh :: w.issued }
  | transfer {direction : Direction} {id : RuntimeId} {src : String} {opts : TransferOpts} :
      Moves svc w (.transfer direction id src opts) { w with
        registry := { w.registry with
          state := (svc.backend.transfer direction id src opts w.registry.state).2 } }
  | accept {request : Wire.ExecRequest} (isOpen : ⟨request.runtimeId⟩ ∈ w.registry.ids)
      (valid : request.opts.check = .ok ()) :
      Moves svc w (.accept request) { w with
        accepted := w.accepted + 1
        waiting := w.waiting ++ [⟨w.accepted, ⟨request.runtimeId⟩, request.opts⟩] }
  | leave {number : Nat} (known : number < w.accepted) :
      Moves svc w (.leave number) { w with gone := number :: w.gone }
  | begin {job : Job} {others : List Job} (waits : w.waiting.Perm (job :: others))
      (free : job.runtime ∉ w.locked) :
      Moves svc w (.begin job.number) { w with
        registry := { w.registry with
          state := (svc.backend.exec job.runtime job.opts w.registry.state).2 }
        locked := job.runtime :: w.locked
        waiting := others
        running := ⟨job, [],
          (svc.backend.exec job.runtime job.opts w.registry.state).1.stream⟩ :: w.running }
  | send {r : Running} {others : List Running} {event : Event} {pending : List Event}
      (runs : w.running.Perm (r :: others)) (next : r.pending = event :: pending) :
      Moves svc w (.send r.number) { w with
        running := ⟨r.job, r.sent ++ [event], pending⟩ :: others }
  | abandon {r : Running} {others : List Running} (runs : w.running.Perm (r :: others))
      (gone : r.number ∈ w.gone) : Moves svc w (.send r.number) (w.release r others)
  | finish {r : Running} {others : List Running} (runs : w.running.Perm (r :: others))
      (sent : r.pending = []) : Moves svc w (.finish r.number) (w.release r others)
  | remove {id : RuntimeId} (isOpen : id ∈ w.registry.ids) :
      Moves svc w (.remove id) { w with
        registry := { w.registry with records := w.registry.records.erase id }
        closing := id :: w.closing }
  | removeAll :
      Moves svc w .removeAll { w with
        registry := { w.registry with records := [] }
        closing := w.registry.ids ++ w.closing }
  | shut {id : RuntimeId} (waits : id ∈ w.closing) (free : id ∉ w.locked) :
      Moves svc w (.shut id) { w with
        locked := id :: w.locked
        closing := w.closing.erase id
        shutting := id :: w.shutting }
  | closed {id : RuntimeId} (shuts : id ∈ w.shutting) :
      Moves svc w (.closed id) { w with
        registry := { w.registry with state := (svc.backend.close id w.registry.state).2 }
        locked := w.locked.erase id
        shutting := w.shutting.erase id
        closed := id :: w.closed }

theorem accept_ok {request : Wire.ExecRequest} {s : Registry β} {id : RuntimeId} {opts : ExecOpts}
    (accepted : Service.accept request s = .ok (id, opts)) :
    ⟨request.runtimeId⟩ ∈ s.ids ∧ request.opts.check = .ok () ∧ id = ⟨request.runtimeId⟩ ∧
      opts = request.opts := by
  unfold Service.accept at accepted
  split at accepted
  · rename_i isOpen
    split at accepted
    · cases accepted
    · rename_i valid
      cases accepted
      exact ⟨(RuntimeTable.has_iff _ _).1 isOpen, valid, rfl, rfl⟩
  · cases accepted

theorem moves_of_advance (made : w.advance svc step = some after) : Moves svc w step after := by
  cases step with
  | opening fresh request =>
    rw [advance] at made
    split at made
    · cases made
    · rename_i new
      cases made
      exact .opening new
  | transfer direction id src opts =>
    cases made
    exact .transfer
  | accept request =>
    rw [advance] at made
    split at made
    · cases made
    · rename_i id opts answer
      obtain ⟨isOpen, valid, rfl, rfl⟩ := accept_ok answer
      cases made
      exact .accept isOpen valid
  | leave number =>
    rw [advance] at made
    split at made
    · rename_i known
      cases made
      exact .leave known
    · cases made
  | begin number =>
    rw [advance] at made
    split at made
    · cases made
    · rename_i job others taken
      obtain ⟨numbered, waits⟩ := takeFirst_some taken
      split at made
      · cases made
      · rename_i free
        cases made
        rw [← eq_of_beq numbered]
        exact .begin waits free
  | send number =>
    rw [advance] at made
    split at made
    · cases made
    · rename_i r others taken
      obtain ⟨numbered, runs⟩ := takeFirst_some taken
      obtain rfl := eq_of_beq numbered
      split at made
      · cases made
      · rename_i event pending next
        split at made
        · rename_i gone
          cases made
          exact .abandon runs gone
        · cases made
          exact .send runs next
  | finish number =>
    rw [advance] at made
    split at made
    · cases made
    · rename_i r others taken
      obtain ⟨numbered, runs⟩ := takeFirst_some taken
      obtain rfl := eq_of_beq numbered
      split at made
      · rename_i sent
        cases made
        exact .finish runs (List.isEmpty_iff.1 sent)
      · cases made
  | remove id =>
    rw [advance] at made
    split at made
    · rename_i isOpen
      cases made
      exact .remove isOpen
    · cases made
  | removeAll =>
    cases made
    exact .removeAll
  | shut id =>
    rw [advance] at made
    split at made
    · rename_i ready
      cases made
      exact .shut ready.1 ready.2
    · cases made
  | closed id =>
    rw [advance] at made
    split at made
    · rename_i shuts
      cases made
      exact .closed shuts
    · cases made

-- The locks that are taken are those of the commands that run and of the runtimes that the
-- backend is closing, each once.
structure Locks (w : Workers β) : Prop where
  once : w.locked.Nodup
  held : w.locked.Perm (w.running.map (·.job.runtime) ++ w.shutting)

theorem Locks.release {r : Running} {others : List Running} (locks : Locks w)
    (runs : w.running.Perm (r :: others)) : Locks (w.release r others) := by
  refine ⟨locks.once.erase _, ?_⟩
  have held := locks.held.trans ((runs.map (·.job.runtime)).append_right w.shutting)
  simpa [Workers.release] using held.erase r.job.runtime

theorem Locks.moves (locks : Locks w) (moves : Moves svc w step after) : Locks after := by
  cases moves with
  | opening | transfer | accept | leave | remove | removeAll => exact ⟨locks.once, locks.held⟩
  | begin _ free => exact ⟨List.nodup_cons.2 ⟨free, locks.once⟩, locks.held.cons _⟩
  | send runs => exact ⟨locks.once, locks.held.trans ((runs.map (·.job.runtime)).append_right _)⟩
  | abandon runs => exact locks.release runs
  | finish runs => exact locks.release runs
  | shut _ free =>
    exact ⟨List.nodup_cons.2 ⟨free, locks.once⟩, (locks.held.cons _).trans List.perm_middle.symm⟩
  | @closed id shuts =>
    refine ⟨locks.once.erase id, ?_⟩
    have erased := (locks.held.trans (((List.perm_cons_erase shuts).append_left _).trans
      List.perm_middle)).erase id
    rw [List.erase_cons_head] at erased
    exact erased

def live (w : Workers β) : List RuntimeId := w.registry.ids ++ w.closing ++ w.shutting

-- Every runtime is in one place, and the backend holds it until it closes it.
structure Places (holds : RuntimeId → β → Prop) (w : Workers β) : Prop where
  once : w.live.Nodup
  issued : ∀ id, id ∈ w.live ∨ id ∈ w.closed → id ∈ w.issued
  held : ∀ id ∈ w.live, holds id w.registry.state
  free : ∀ id ∈ w.closed, ¬ holds id w.registry.state

inductive Change (holds : RuntimeId → β → Prop) (w after : Workers β) : Prop where
  | moved (live : after.live.Perm w.live) (closed : after.closed = w.closed)
      (issued : ∀ id ∈ w.issued, id ∈ after.issued)
      (held : ∀ id, holds id after.registry.state ↔ holds id w.registry.state)
  | opened {fresh : RuntimeId} (new : fresh ∉ w.issued) (live : after.live.Perm (fresh :: w.live))
      (closed : after.closed = w.closed) (issued : after.issued = fresh :: w.issued)
      (held : ∀ id, holds id after.registry.state ↔ id = fresh ∨ holds id w.registry.state)
  | closed {id : RuntimeId} (shuts : id ∈ w.shutting) (live : w.live.Perm (id :: after.live))
      (closed : after.closed = id :: w.closed) (issued : after.issued = w.issued)
      (held : ∀ other, holds other after.registry.state ↔
        other ≠ id ∧ holds other w.registry.state)

variable {holds : RuntimeId → β → Prop}

theorem Places.change (places : Places holds w) (change : Change holds w after) :
    Places holds after := by
  cases change with
  | moved live closed issued held =>
    refine ⟨live.nodup_iff.2 places.once, ?_, ?_, ?_⟩
    · intro id there
      rw [live.mem_iff, closed] at there
      exact issued id (places.issued id there)
    · intro id member
      exact (held id).2 (places.held id (live.mem_iff.1 member))
    · intro id member kept
      exact places.free id (closed ▸ member) ((held id).1 kept)
  | opened new live closed issued held =>
    have unknown := fun live => new (places.issued _ (.inl live))
    refine ⟨live.nodup_iff.2 (List.nodup_cons.2 ⟨unknown, places.once⟩), ?_, ?_, ?_⟩
    · intro id there
      rw [live.mem_iff, List.mem_cons, closed, or_assoc] at there
      rw [issued]
      exact List.mem_cons.2 (there.imp_right (places.issued id))
    · intro id member
      exact (held id).2 ((List.mem_cons.1 (live.mem_iff.1 member)).imp_right (places.held id))
    · intro id member kept
      rw [closed] at member
      rcases (held id).1 kept with rfl | kept
      · exact new (places.issued _ (.inr member))
      · exact places.free id member kept
  | @closed id shuts live closed issued held =>
    obtain ⟨absent, once⟩ := List.nodup_cons.1 (live.nodup_iff.1 places.once)
    refine ⟨once, ?_, ?_, ?_⟩
    · intro other there
      rw [issued]
      rw [closed, List.mem_cons] at there
      rcases there with member | rfl | member
      · exact places.issued other (.inl (live.mem_iff.2 (.tail _ member)))
      · exact places.issued _ (.inl (List.mem_append_right _ shuts))
      · exact places.issued other (.inr member)
    · intro other member
      refine (held other).2 ⟨?_, places.held other (live.mem_iff.2 (.tail _ member))⟩
      rintro rfl
      exact absent member
    · intro other member kept
      obtain ⟨ne, kept⟩ := (held other).1 kept
      rw [closed, List.mem_cons] at member
      exact places.free other (member.resolve_left ne) kept

end Workers

namespace Service

variable {β : Type} {svc : Service β} {holds : RuntimeId → β → Prop} {s : Registry β}

theorem openRuntime_tracks (tracks : svc.backend.Tracks holds) {fresh : RuntimeId}
    (new : fresh ∉ s.ids) (request : Wire.OpenRequest) :
    ((svc.openRuntime fresh request s).2.ids = s.ids ∧
        ∀ id, holds id (svc.openRuntime fresh request s).2.state ↔ holds id s.state) ∨
      (svc.openRuntime fresh request s).2.ids = s.ids ++ [fresh] ∧
        ∀ id, holds id (svc.openRuntime fresh request s).2.state ↔ id = fresh ∨ holds id s.state := by
  unfold openRuntime
  split
  · exact .inl ⟨rfl, fun _ => .rfl⟩
  cases request.opts.toConfig with
  | error e => exact .inl ⟨rfl, fun _ => .rfl⟩
  | ok config =>
    dsimp only
    split
    · have opened := tracks.opened fresh config s.state
      have refused := tracks.refused fresh config s.state
      generalize svc.backend.openRuntime fresh config s.state = answer at opened refused
      rcases answer with ⟨e | opened', state⟩
      · exact .inl ⟨rfl, fun id => refused e id rfl⟩
      · exact .inr ⟨RuntimeTable.map_fst_put _ _ _ new, fun id => opened opened' id rfl⟩
    · exact .inl ⟨rfl, fun _ => .rfl⟩

end Service

namespace Workers

variable {β : Type} {svc : Service β} {w after : Workers β} {step : WorkerStep}
  {holds : RuntimeId → β → Prop}

theorem Change.opening (tracks : svc.backend.Tracks holds) (places : Places holds w)
    {fresh : RuntimeId} (new : fresh ∉ w.issued) (request : Wire.OpenRequest) :
    Change holds w { w with
      registry := (svc.openRuntime fresh request w.registry).2
      issued := fresh :: w.issued } := by
  have unregistered : fresh ∉ w.registry.ids := fun isOpen =>
    new (places.issued fresh (.inl (List.mem_append_left _ (List.mem_append_left _ isOpen))))
  rcases Service.openRuntime_tracks tracks unregistered request with ⟨ids, held⟩ | ⟨ids, held⟩
  · refine .moved (.of_eq ?_) rfl (fun id member => .tail _ member) held
    simp only [live, ids]
  · refine .opened new ?_ rfl rfl held
    simp only [live, ids, List.append_assoc, List.singleton_append]
    exact List.perm_middle

theorem change_of_moves (tracks : svc.backend.Tracks holds) (places : Places holds w)
    (moves : Moves svc w step after) : Change holds w after := by
  cases moves with
  | opening new => exact .opening tracks places new _
  | transfer => exact .moved (.refl _) rfl (fun _ there => there) (tracks.transfer _ _ _ _ _)
  | accept | leave | send | abandon | finish =>
    exact .moved (.refl _) rfl (fun _ there => there) fun _ => .rfl
  | begin => exact .moved (.refl _) rfl (fun _ there => there) (tracks.exec _ _ _)
  | @remove id isOpen =>
    refine .moved ?_ rfl (fun _ there => there) fun _ => .rfl
    have distinct : w.registry.ids.Nodup :=
      (List.nodup_append.1 (List.nodup_append.1 places.once).1).1
    have erased : (w.registry.records.erase id).map (·.1) = w.registry.ids.erase id := by
      rw [RuntimeTable.map_fst_erase, distinct.erase_eq_filter]
      exact List.filter_congr fun other _ => Bool.eq_iff_iff.2 (by simp)
    have back : (w.registry.ids.erase id ++ id :: w.closing).Perm (w.registry.ids ++ w.closing) :=
      List.perm_middle.trans ((List.perm_cons_erase isOpen).symm.append_right _)
    simpa only [live, Registry.ids, erased] using back.append_right _
  | removeAll =>
    refine .moved (.of_eq ?_) rfl (fun _ there => there) fun _ => .rfl
    simp [live, Registry.ids]
  | @shut id waits =>
    refine .moved ?_ rfl (fun _ there => there) fun _ => .rfl
    have back : (w.closing.erase id ++ id :: w.shutting).Perm (w.closing ++ w.shutting) :=
      List.perm_middle.trans ((List.perm_cons_erase waits).symm.append_right _)
    simpa only [live, List.append_assoc] using back.append_left _
  | @closed id shuts =>
    exact .closed shuts (((List.perm_cons_erase shuts).append_left _).trans List.perm_middle) rfl rfl
      (tracks.close id w.registry.state)

end Workers

end ControlPlane
