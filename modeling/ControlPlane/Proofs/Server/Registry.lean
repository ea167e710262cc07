import ControlPlane.Proofs.Executor.Keeping
import ControlPlane.Server.Registry
-- What each operation of the server does to the ids that are registered, and that the
-- backend holds every runtime that is registered.
namespace ControlPlane

variable {β : Type}

structure Registry.Kept (holds : RuntimeId → β → Prop) (s : Registry β) : Prop where
  distinct : s.ids.Nodup
  held : ∀ id ∈ s.ids, holds id s.state

namespace Service

variable {svc : Service β} {holds : RuntimeId → β → Prop} (keeps : svc.backend.Keeps holds)
  {s : Registry β} (kept : s.Kept holds)

include keeps kept

theorem openRuntime_registers (fresh : RuntimeId) (new : fresh ∉ s.ids)
    (request : Wire.OpenRequest) :
    ((∃ e, (svc.openRuntime fresh request s).1 = .error e) ∧
        (svc.openRuntime fresh request s).2.ids = s.ids ∨
      (∃ r, (svc.openRuntime fresh request s).1 = .ok r ∧ r.runtimeId = fresh.text) ∧
        (svc.openRuntime fresh request s).2.ids = s.ids ++ [fresh]) ∧
      (svc.openRuntime fresh request s).2.Kept holds := by
  unfold openRuntime
  split
  · exact ⟨.inl ⟨⟨_, rfl⟩, rfl⟩, kept⟩
  cases request.opts.toConfig with
  | error e => exact ⟨.inl ⟨⟨_, rfl⟩, rfl⟩, kept⟩
  | ok config =>
    dsimp only
    split
    · have others := fun id held => keeps.openRuntime fresh config s.state id held
      have opens := keeps.opened fresh config s.state
      generalize svc.backend.openRuntime fresh config s.state = answer at others opens
      rcases answer with ⟨e | opened, state⟩
      · refine ⟨.inl ⟨⟨_, rfl⟩, rfl⟩, kept.distinct, fun id member => ?_⟩
        exact others id (kept.held id member)
      · have ids : (s.records.put fresh ⟨opened.workDirectory, config.displayName⟩).map (·.1) =
            s.ids ++ [fresh] := RuntimeTable.map_fst_put _ _ _ new
        refine ⟨.inr ⟨⟨_, rfl, rfl⟩, ids⟩, ?_, fun id member => ?_⟩
        · show ((s.records.put fresh _).map (·.1)).Nodup
          rw [ids]
          refine List.nodup_append.mpr ⟨kept.distinct, by simp, fun id member other last => ?_⟩
          rw [List.mem_singleton.mp last]
          rintro rfl
          exact new member
        · have registered : id ∈ s.ids ++ [fresh] := ids ▸ member
          rcases List.mem_append.mp registered with old | last
          · exact others id (kept.held id old)
          · rw [List.mem_singleton.mp last]
            exact opens opened rfl
    · exact ⟨.inl ⟨⟨_, rfl⟩, rfl⟩, kept⟩

theorem exec_registered (request : Wire.ExecRequest) :
    (svc.exec request s).2.ids = s.ids ∧ (svc.exec request s).2.Kept holds := by
  unfold exec
  split
  · exact ⟨rfl, kept⟩
  · exact ⟨rfl, kept.distinct, fun id member => keeps.exec _ _ _ id (kept.held id member)⟩

theorem transfer_registered (direction : Direction) (request : Wire.TransferRequest) :
    (svc.transfer direction request s).2.ids = s.ids ∧
      (svc.transfer direction request s).2.Kept holds := by
  unfold transfer
  split
  · have others := fun id held => keeps.transfer direction ⟨request.runtimeId⟩ request.src
      request.opts s.state id held
    generalize svc.backend.transfer direction ⟨request.runtimeId⟩ request.src request.opts s.state =
      answer at others
    rcases answer with ⟨e | _, state⟩
    · exact ⟨rfl, kept.distinct, fun id member => others id (kept.held id member)⟩
    · exact ⟨rfl, kept.distinct, fun id member => others id (kept.held id member)⟩
  · exact ⟨rfl, kept⟩

theorem close_registered (request : Wire.CloseRequest) :
    (svc.close request s).2.ids = s.ids.filter (· ≠ ⟨request.runtimeId⟩) ∧
      (svc.close request s).2.Kept holds := by
  unfold close
  split
  · have others := fun id ne held => keeps.close ⟨request.runtimeId⟩ s.state id ne held
    have ids := RuntimeTable.map_fst_erase s.records ⟨request.runtimeId⟩
    have erased : ∀ state, (∀ id, id ≠ ⟨request.runtimeId⟩ → holds id s.state → holds id state) →
        (⟨s.records.erase ⟨request.runtimeId⟩, state⟩ : Registry β).Kept holds := by
      intro state others
      refine ⟨?_, fun id member => ?_⟩
      · show ((s.records.erase _).map (·.1)).Nodup
        rw [ids]
        exact kept.distinct.filter _
      · have registered : id ∈ s.ids.filter (· ≠ ⟨request.runtimeId⟩) := ids ▸ member
        obtain ⟨old, other⟩ := List.mem_filter.mp registered
        exact others id (of_decide_eq_true other) (kept.held id old)
    dsimp only
    generalize svc.backend.close ⟨request.runtimeId⟩ s.state = answer at others
    rcases answer with ⟨e | _, state⟩
    · exact ⟨ids, erased state others⟩
    · exact ⟨ids, erased state others⟩
  · rename_i absent
    refine ⟨?_, kept⟩
    have missing : ⟨request.runtimeId⟩ ∉ s.ids :=
      fun member => absent ((RuntimeTable.has_iff _ _).mpr member)
    refine (List.filter_eq_self.mpr fun id member => decide_eq_true ?_).symm
    rintro rfl
    exact missing member

omit kept in
theorem closeEach_count (ids : List RuntimeId) (state : β) (distinct : ids.Nodup)
    (held : ∀ id ∈ ids, holds id state) : (svc.closeEach ids state).1 = ids.length := by
  induction ids generalizing state with
  | nil => rfl
  | cons id ids ih =>
    obtain ⟨fresh, distinct⟩ := List.nodup_cons.mp distinct
    have closed := keeps.closed id state (held id (.head _))
    have others : ∀ other ∈ ids, holds other (svc.backend.close id state).2 := by
      intro other member
      refine keeps.close id state other ?_ (held other (.tail _ member))
      rintro rfl
      exact fresh member
    have rest := ih _ distinct others
    rw [closeEach]
    generalize svc.backend.close id state = answer at closed rest
    obtain ⟨result, after⟩ := answer
    cases closed
    simp only [rest, List.length_cons]

theorem closeAll_count : (svc.closeAll s).1 = s.ids.length :=
  closeEach_count keeps s.ids s.state kept.distinct kept.held

omit keeps kept in
theorem closeAll_kept : (svc.closeAll s).2.Kept holds := ⟨.nil, nofun⟩

end Service

end ControlPlane
