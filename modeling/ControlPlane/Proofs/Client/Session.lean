import ControlPlane.Client.Session
import ControlPlane.Proofs.Client.Handle
-- The steps of a build as changes of its session, and the calls of a whole run by the
-- handle that they were sent for.
namespace ControlPlane

-- The ways in which a step changes a session, with the handle it is about and the calls
-- that were sent.
inductive Changes {σ : Type} (p : Plane σ) (s : Session σ) :
    Session σ → Option Nat → List Call → Prop where
  | still (who : Option Nat) : Changes p s s who []
  | unopened (request : Wire.OpenRequest) (error : TransportError)
      (answered : (p.call (.opening request) s.state).1 = .error error) :
      Changes p s ⟨(p.call (.opening request) s.state).2, s.slots⟩ none [.opening request]
  | opened (request : Wire.OpenRequest) (runtime : Wire.OpenResponse) (holder : Holder)
      (answered : (p.call (.opening request) s.state).1 = .ok runtime) :
      Changes p s
        ⟨(p.call (.opening request) s.state).2,
          s.slots ++ [⟨⟨runtime, false, [.opening request]⟩, some holder⟩]⟩
        (some s.slots.length) [.opening request]
  | acted (n : Nat) (slot : Slot) (found : s.slot? n = some slot) {h : Handle} {state : σ}
      {sent : List Call} (acts : Acts p slot.handle s.state h state sent)
      (holder : Option Holder) :
      Changes p s (s.put n ⟨h, holder⟩ state) (some n) sent

theorem getElem?_append_new {α : Type} {l : List α} {a b : α} {n : Nat}
    (there : (l ++ [a])[n]? = some b) :
    (n < l.length ∧ l[n]? = some b) ∨ (n = l.length ∧ b = a) := by
  rcases Nat.lt_or_ge n l.length with below | above
  · rw [List.getElem?_append_left below] at there
    exact .inl ⟨below, there⟩
  · rw [List.getElem?_append_right above, List.getElem?_singleton] at there
    split at there
    · exact .inr ⟨by omega, (Option.some.inj there).symm⟩
    · cases there

theorem getElem?_set_cases {α : Type} {l : List α} {a b : α} {m n : Nat}
    (there : (l.set n a)[m]? = some b) : (m = n ∧ b = a) ∨ (n ≠ m ∧ l[m]? = some b) := by
  rw [List.getElem?_set] at there
  split at there
  · rename_i same
    split at there
    · exact .inl ⟨same.symm, (Option.some.inj there).symm⟩
    · cases there
  · rename_i other
    exact .inr ⟨other, there⟩

theorem Session.found {σ : Type} {s : Session σ} {n : Nat} {slot : Slot}
    (found : s.slot? n = some slot) : s.slots[n]? = some slot ∧ slot.holder.isSome = true := by
  obtain ⟨there, held⟩ := Option.filter_eq_some_iff.mp found
  exact ⟨there, held⟩

-- The handle that a move is about. An opening is about the handle it gives, if any.
def Move.about {σ : Type} (before after : Session σ) : Move → Option Nat
  | .openFor .. =>
    if before.slots.length < after.slots.length then some before.slots.length else none
  | .perform n _ => some n
  | .dropHandle n => some n
  | .closeGuarded n => some n
  | .unguard n => some n

namespace Client

variable {σ : Type} (c : Client σ) (s : Session σ)

theorem openFor_changes (holder : Holder) (config : RuntimeConfig) : ∃ sent,
    Changes c.plane s (c.openFor holder config s).2
      ((Move.openFor holder config).about s (c.openFor holder config s).2) sent := by
  have opens := openRuntime_opens c s.state config
  unfold openFor
  generalize c.openRuntime config s.state = done at opens
  cases opens with
  | invalid e => exact ⟨[], .still _⟩
  | failed request e answered =>
    refine ⟨[.opening request], ?_⟩
    simp only [Move.about, Nat.lt_irrefl, if_false]
    exact .unopened request e answered
  | opened request runtime answered =>
    refine ⟨[.opening request], ?_⟩
    simp only [Move.about, List.length_append, List.length_singleton, Nat.lt_succ_self, if_true]
    exact .opened request runtime holder answered

theorem performAt_changes (n : Nat) (a : Action) : ∃ sent,
    Changes c.plane s (c.performAt n a s).2 (some n) sent := by
  unfold performAt
  cases found : s.slot? n with
  | none => exact ⟨[], .still _⟩
  | some slot =>
    obtain ⟨sent, acts⟩ := perform_acts c slot.handle s.state a
    exact ⟨sent, .acted n slot found acts slot.holder⟩

theorem dropAt_changes (n : Nat) : ∃ sent,
    Changes c.plane s (c.dropAt n s) (some n) sent := by
  unfold dropAt
  cases found : s.slot? n with
  | none => exact ⟨[], .still _⟩
  | some slot =>
    obtain ⟨sent, acts⟩ := closeOnce_acts c slot.handle s.state
    dsimp only
    split
    · exact ⟨sent, .acted n slot found acts none⟩
    · exact ⟨[], .acted n slot found .still none⟩

theorem closeGuarded_changes (n : Nat) : ∃ sent,
    Changes c.plane s (c.closeGuarded n s).2 (some n) sent := by
  unfold closeGuarded
  cases found : s.slot? n with
  | none => exact ⟨[], .still _⟩
  | some slot =>
    obtain ⟨sent, acts⟩ := closeOnce_acts c slot.handle s.state
    exact ⟨sent, .acted n slot found acts none⟩

theorem unguard_changes (n : Nat) : Changes c.plane s (s.unguard n).2 (some n) [] := by
  unfold Session.unguard
  cases found : s.slot? n with
  | none => exact .still _
  | some slot => exact .acted n slot found .still (some .owner)

theorem step_changes (m : Move) : ∃ sent,
    Changes c.plane s (c.step s m) (m.about s (c.step s m)) sent := by
  cases m with
  | openFor holder config => exact openFor_changes c s holder config
  | perform n a => exact performAt_changes c s n a
  | dropHandle n => exact dropAt_changes c s n
  | closeGuarded n => exact closeGuarded_changes c s n
  | unguard n => exact ⟨[], unguard_changes c s n⟩

end Client

end ControlPlane
