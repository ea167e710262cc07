import ControlPlane.Proofs.RuntimeTable
import ControlPlane.Proofs.Server.Refusals
import ControlPlane.Proofs.Shell.Order
import ControlPlane.Proofs.Transfer.Carrying
-- The trees of a server that runs commands stay in order, whatever is asked of it: the
-- local one and those of the runtimes.
namespace ControlPlane

structure Backend.Preserves {β : Type} (backend : Backend β) (inv : β → Prop) : Prop where
  openRuntime : ∀ id config state, inv state → inv (backend.openRuntime id config state).2
  exec : ∀ id opts state, inv state → inv (backend.exec id opts state).2
  transfer : ∀ direction id src opts state, inv state →
    inv (backend.transfer direction id src opts state).2
  close : ∀ id state, inv state → inv (backend.close id state).2

namespace Service

variable {β : Type} {svc : Service β} {inv : β → Prop} {s : Registry β}

section

variable (preserves : svc.backend.Preserves inv)

include preserves

theorem perform_preserves (fresh : RuntimeId) (call : Call) (held : inv s.state) :
    inv (svc.perform fresh call s).2.state := by
  cases call with
  | opening request =>
    show inv (svc.openRuntime fresh request s).2.state
    unfold openRuntime
    split
    · exact held
    split
    · exact held
    rename_i config _
    split
    · have after := preserves.openRuntime fresh config s.state held
      split
      all_goals
        rename_i answered
        rwa [answered] at after
    · exact held
  | exec request =>
    show inv (svc.exec request s).2.state
    unfold exec
    split
    · exact held
    · exact preserves.exec _ _ _ held
  | transfer direction request =>
    show inv (svc.transfer direction request s).2.state
    unfold transfer
    split
    · have after := preserves.transfer direction ⟨request.runtimeId⟩ request.src request.opts
        s.state held
      split
      all_goals
        rename_i answered
        rwa [answered] at after
    · exact held
  | closing request =>
    show inv (svc.close request s).2.state
    unfold close
    split
    · have after := preserves.close ⟨request.runtimeId⟩ s.state held
      dsimp only
      split
      all_goals
        rename_i answered
        rwa [answered] at after
    · exact held

theorem closeEach_preserves (ids : List RuntimeId) {state : β} (held : inv state) :
    inv (svc.closeEach ids state).2 := by
  induction ids generalizing state with
  | nil => exact held
  | cons id rest ih =>
    have after := preserves.close id state held
    unfold closeEach
    split
    all_goals
      rename_i closed
      rw [closed] at after
      exact ih after

theorem step_preserves (step : Step) (held : inv s.state) : inv (svc.step s step).state := by
  cases step with
  | request fresh request =>
    rcases svc.handle_checks fresh s request with ⟨_, _, _, _, same⟩ | ⟨_, call, _, same⟩
    · rw [Service.step, same]
      exact held
    · rw [Service.step, same]
      exact perform_preserves preserves fresh call held
  | closeAll => exact closeEach_preserves preserves s.ids held

theorem after_preserves {start : β} (held : inv start) (steps : List Step) :
    inv (svc.after start steps).state := by
  have run : ∀ s : Registry β, inv s.state → inv (steps.foldl svc.step s).state := by
    induction steps with
    | nil => exact fun s held => held
    | cons step steps ih => exact fun s held => ih _ (step_preserves preserves step held)
  exact run _ held

end

end Service

def Machine.KeepsOrder (m : Machine) : Prop :=
  ∀ program files finished after, files.Ordered → m.run program files = .ok (finished, after) →
    after.Ordered

theorem Shell.machine_keepsOrder (info : SystemInfo) : (machine info).KeepsOrder :=
  fun _ _ _ _ => runAt_ordered

namespace Host

structure State.Ordered (s : State) : Prop where
  localFiles : s.localFiles.Ordered
  works : ∀ id work, s.works.get? id = some work → work.files.Ordered

theorem State.Ordered.modify {s : State} (ordered : s.Ordered) {id : RuntimeId}
    {files : Volume} (kept : files.Ordered) :
    State.Ordered { s with works := s.works.modify id ({ · with files := files }) } := by
  refine ⟨ordered.localFiles, fun other work held => ?_⟩
  by_cases same : other = id
  · rw [same, RuntimeTable.get?_modify] at held
    obtain ⟨old, _, rfl⟩ := Option.map_eq_some_iff.1 held
    exact kept
  · rw [RuntimeTable.modify_eq_edit, RuntimeTable.get?_edit_of_ne _ same] at held
    exact ordered.works other work held

theorem preserves_ordered {m : Machine} (keeps : m.KeepsOrder)
    (directory : Nat → Except String String) : (backend m directory).Preserves State.Ordered where
  openRuntime id config s ordered := by
    simp only [backend, openRuntime]
    split
    · split
      · exact ⟨ordered.localFiles, ordered.works⟩
      · refine ⟨ordered.localFiles, fun other work held => ?_⟩
        by_cases same : other = id
        · rw [same, RuntimeTable.get?_put] at held
          cases held
          rfl
        · rw [RuntimeTable.get?_put_of_ne _ same] at held
          exact ordered.works other work held
    · exact ordered
  exec id opts s ordered := by
    simp only [backend, exec]
    split
    · exact ordered
    split
    · exact ordered
    rename_i work held
    split
    · exact ordered
    · rename_i ran
      exact ordered.modify (keeps _ _ _ _ (ordered.works id work held) ran)
  transfer direction id src opts s ordered := by
    simp only [backend, transfer]
    split
    · exact ordered
    rename_i work held
    have inside := ordered.works id work held
    split
    · exact ordered.modify (Transfer.run_ordered _ inside _)
    · exact ⟨Transfer.run_ordered _ ordered.localFiles _, ordered.works⟩
  close id s ordered := by
    simp only [backend, close]
    split
    · refine ⟨ordered.localFiles, fun other work held => ?_⟩
      have there : (s.works.erase id).has other = true := by simp [RuntimeTable.has, held]
      have apart := ((s.works.has_erase_iff id other).1 there).1
      rw [RuntimeTable.erase_eq_edit, RuntimeTable.get?_edit_of_ne _ apart] at held
      exact ordered.works other work held
    · exact ordered

-- After any requests, the local tree and those of all runtimes are in order if the local
-- tree was.
theorem files_ordered {m : Machine} (keeps : m.KeepsOrder)
    (directory : Nat → Except String String) (buildId : BuildId) (words : Json.Words)
    {localFiles : Volume} (ordered : localFiles.Ordered) (steps : List Service.Step) :
    State.Ordered (Service.after ⟨buildId, backend m directory, words⟩ (start localFiles)
      steps).state := by
  have begins : (start localFiles).Ordered := ⟨ordered, nofun⟩
  exact @Service.after_preserves _ ⟨buildId, backend m directory, words⟩ _
    (preserves_ordered keeps directory) _ begins steps

end Host

theorem Shell.files_ordered (info : SystemInfo) (directory : Nat → Except String String)
    (buildId : BuildId) (words : Json.Words) {localFiles : Volume} (ordered : localFiles.Ordered)
    (steps : List Service.Step) :
    Host.State.Ordered (Service.after ⟨buildId, Host.backend (machine info) directory, words⟩
      (Host.start localFiles) steps).state :=
  Host.files_ordered (machine_keepsOrder info) directory buildId words ordered steps

end ControlPlane
