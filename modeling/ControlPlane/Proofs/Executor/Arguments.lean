import ControlPlane.Proofs.Executor.Keeping
-- What passes its check is not checked again with another outcome: no operation of a
-- backend fails for arguments that are valid.
namespace ControlPlane

def Unblamed {α : Type} (result : Except ExecutorError α) : Prop :=
  ∀ error, result ≠ .error (.config error)

namespace Unblamed

variable {α β : Type} {result : Except ExecutorError α}

theorem ok (a : α) : Unblamed (.ok a) := nofun

theorem passed_on {e : ExecutorError} (unblamed : Unblamed result) (failed : result = .error e) :
    Unblamed (.error e : Except ExecutorError β) := by
  intro error same
  cases same
  exact unblamed error failed

theorem map (unblamed : Unblamed result) (f : α → β) : Unblamed (result.map f) := by
  cases result with
  | ok a => exact ok (f a)
  | error e => exact unblamed.passed_on rfl

theorem mapM {f : β → Except ExecutorError α} (unblamed : ∀ b, Unblamed (f b)) (l : List β) :
    Unblamed (l.mapM f) := by
  induction l with
  | nil => exact ok []
  | cons b l ih =>
    rw [List.mapM_cons]
    cases first : f b with
    | error e => exact (unblamed b).passed_on first
    | ok a =>
      cases rest : l.mapM f with
      | error e => exact ih.passed_on rest
      | ok made => exact ok _

theorem mapError_ioError (result : Except Fault α) : Unblamed (result.mapError Transfer.ioError) := by
  cases result <;> exact nofun

end Unblamed

namespace Transfer

theorem walk_unblamed (v : Volume) (excludes : List Pattern) (path : String) :
    Unblamed (walk v excludes path) := .mapError_ioError _

theorem readExcludes_unblamed (texts : List String) : Unblamed (readExcludes texts) := by
  induction texts with
  | nil => exact .ok []
  | cons text rest ih =>
    unfold readExcludes
    split
    · exact nofun
    · exact ih.map _

theorem planGlob_unblamed (v : Volume) (excludes : List Pattern) (src dest : String) :
    Unblamed (planGlob v excludes src dest) := by
  unfold planGlob
  split
  · exact nofun
  · split
    · exact nofun
    · exact (Unblamed.mapM (fun found => (walk_unblamed v excludes found).map _) _).map _

theorem planPlain_unblamed (v : Volume) (excludes : List Pattern) (src dest : String) :
    Unblamed (planPlain v excludes src dest) := by
  unfold planPlain
  dsimp only
  split
  · exact nofun
  · exact nofun
  · split
    · exact (walk_unblamed v excludes _).map _
    · split
      · exact (walk_unblamed v excludes _).map _
      · exact .ok _

theorem plan_unblamed (v : Volume) {src : String} {opts : TransferOpts}
    (valid : opts.check src = .ok ()) : Unblamed (plan v src opts) := by
  unfold plan
  rw [valid]
  dsimp only
  split
  · rename_i e unread
    exact (readExcludes_unblamed opts.excludes).passed_on unread
  · split
    · exact planGlob_unblamed v _ src opts.dest
    · exact planPlain_unblamed v _ src opts.dest

theorem run_unblamed (source target : Volume) {src : String} {opts : TransferOpts}
    (valid : opts.check src = .ok ()) : Unblamed (run source target src opts).1 := by
  unfold run
  split
  · rename_i e unplanned
    exact (plan_unblamed source valid).passed_on unplanned
  · exact .mapError_ioError _

end Transfer

-- A backend that finds nothing wrong with valid arguments. Every description counts as valid,
-- since a server checks it before.
structure Backend.Trusts {β : Type} (backend : Backend β) : Prop where
  openRuntime : ∀ id config state, Unblamed (backend.openRuntime id config state).1
  transfer : ∀ direction id src opts state, opts.check src = .ok () →
    Unblamed (backend.transfer direction id src opts state).1
  close : ∀ id state, Unblamed (backend.close id state).1

theorem Mock.trusts : Mock.backend.Trusts where
  openRuntime _ _ _ := .ok _
  transfer direction id src opts t valid := by
    simp only [backend, transfer, valid, record]
    split <;> simp [Unblamed]
  close id t := by
    simp only [backend, close]
    split <;> simp [Unblamed]

theorem Host.trusts (m : Machine) (directory : Nat → Except String String) :
    (Host.backend m directory).Trusts where
  openRuntime id config s := by
    simp only [backend, openRuntime]
    split
    · split <;> simp [Unblamed]
    · simp [Unblamed]
  transfer direction id src opts s valid := by
    simp only [backend, transfer]
    split
    · simp [Unblamed]
    · cases direction <;> exact (Transfer.run_unblamed _ _ valid).map _
  close id s := by
    simp only [backend, close]
    split <;> simp [Unblamed]

theorem Installed.trusts : (b : Installed) → b.backend.Trusts
  | mock => Mock.trusts
  | host machine directory _ => Host.trusts machine directory

end ControlPlane
