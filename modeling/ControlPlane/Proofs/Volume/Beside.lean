import ControlPlane.Proofs.Volume.Ways
-- Volumes with the same root. Steps that do not lead up find the same in both, whatever
-- stands beside the root.
namespace ControlPlane.Volume

variable {v w : Volume} {steps here : List Name} {path : String}
  {onLink onLink' : List Name → List Name → Except Fault Spot}

section

variable (same : w.root? = v.root?)

include same

theorem node?_beside (here : List Name) : w.node? (rootName :: here) = v.node? (rootName :: here) := by
  show w.root?.bind _ = v.root?.bind _
  rw [same]

theorem follow_beside (free : v.LinkFree) (level : dotDot ∉ steps) :
    w.follow onLink' (rootName :: here) steps = v.follow onLink (rootName :: here) steps := by
  induction steps generalizing here with
  | nil => rfl
  | cons step steps ih =>
    rw [List.mem_cons, not_or] at level
    have further : ∀ here, w.follow onLink' (rootName :: here) steps =
        v.follow onLink (rootName :: here) steps := fun here => @ih here level.2
    rw [Volume.follow, Volume.follow, node?_beside same]
    cases standing : v.node? (rootName :: here) with
    | none => rfl
    | some node =>
      cases node with
      | file content => rfl
      | link target => rfl
      | dir entries =>
        have below := kindAt_child standing
        dsimp only
        rw [further, if_neg (Ne.symm level.1), if_neg (Ne.symm level.1)]
        cases held : entries.lookup step with
        | none => rfl
        | some child =>
          cases child with
          | file content => exact congrArg _ (congrArg _ (further (here ++ [step])))
          | dir inner => exact congrArg _ (congrArg _ (further (here ++ [step])))
          | link target =>
            exact absurd (by rw [below, held]; rfl) (free (rootName :: here ++ [step]))

theorem spot_beside (free : v.LinkFree) (level : dotDot ∉ steps) : w.spot steps = v.spot steps := by
  rw [spot, spot, same]
  cases v.root? with
  | none => rfl
  | some root => exact follow_beside same free level

theorem stat_beside (free : v.LinkFree) (level : dotDot ∉ steps) : w.stat steps = v.stat steps := by
  have found : w.find steps = v.find steps := by rw [find, find, spot_beside same free level]
  rw [stat, stat, found]
  cases at_ : v.find steps with
  | error f => rfl
  | ok place =>
    have goes : place = placeOf steps := (goes_of_spot free (find_eq_ok.1 at_)).place
    rw [goes, placeOf_level level]
    simp only [bind, Except.bind]
    rw [node?_beside same]

theorem statPath_beside (free : v.LinkFree) (level : dotDot ∉ stepsOf (bytesOf path)) :
    w.statPath path = v.statPath path := by
  unfold statPath
  cases read : pathSteps path with
  | error f => rfl
  | ok steps =>
    rw [← pathSteps_eq read] at level
    exact stat_beside same free level

end

end ControlPlane.Volume
