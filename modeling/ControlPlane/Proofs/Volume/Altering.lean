import ControlPlane.Proofs.Volume.Filling
import ControlPlane.Proofs.Volume.Making
-- What making directories and writing a file leave as it is, whether they succeed or not:
-- all but the place that the steps spell and the places above it.
namespace ControlPlane

namespace Volume

variable {v w middle : Volume} {steps front done place : List Name} {content : File}
  {P Q : List Name → Prop}

-- A later volume in which nothing is gone, and that is the same but for some places. Files
-- there may have another content.
structure Alters (P : List Name → Prop) (v w : Volume) : Prop where
  others : ∀ place, ¬ P place → w.kindAt place = v.kindAt place
  dirs : ∀ place, v.kindAt place = some .dir → w.kindAt place = some .dir
  files : ∀ place content, v.kindAt place = some (.file content) →
    ∃ held, w.kindAt place = some (.file held)
  linkFree : v.LinkFree → w.LinkFree
  ordered : v.Ordered → w.Ordered

theorem Alters.refl (v : Volume) : Alters P v v :=
  ⟨fun _ _ => rfl, fun _ dir => dir, fun _ content file => ⟨content, file⟩, id, id⟩

theorem Alters.trans (one : Alters P v middle) (two : Alters P middle w) : Alters P v w := by
  refine ⟨fun place away => ?_, fun place dir => two.dirs place (one.dirs place dir),
    fun place content file => ?_, two.linkFree ∘ one.linkFree, two.ordered ∘ one.ordered⟩
  · rw [two.others place away, one.others place away]
  · obtain ⟨held, there⟩ := one.files place content file
    exact two.files place held there

theorem Alters.mono (alters : Alters P v w) (more : ∀ place, P place → Q place) : Alters Q v w :=
  { alters with others := fun place away => alters.others place fun inside => away (more place inside) }

theorem Alters.grows (alters : Alters P v w) (free : v.LinkFree) : Grows v w := by
  refine ⟨alters.dirs, fun place there => ?_⟩
  cases kind : v.kindAt place with
  | none => exact absurd kind there
  | some kind_ =>
    cases kind_ with
    | link => exact absurd kind (free place)
    | dir => simp [alters.dirs place kind]
    | file content =>
      obtain ⟨held, file⟩ := alters.files place content kind
      simp [file]

theorem Goes.short {here : List Name} {spot : Spot} (goes : Goes v here steps spot) :
    ∀ step ∈ steps, step ≠ dot → step ≠ dotDot → step.length ≤ longestName := by
  induction goes with
  | arrive => simp
  | stay _ _ ih => simpa using ih
  | climb _ _ ih => simpa using ih
  | enter _ _ fits _ _ ih => exact List.forall_mem_cons.2 ⟨fun _ _ => fits, ih⟩
  | free _ _ fits _ => simpa using fun _ _ => fits

theorem Reaches.named (reaches : Reaches v steps) (level : dotDot ∉ steps) :
    Named (steps.filter (· ≠ dot)) := by
  have split : ∀ step ∈ steps.filter (· ≠ dot), step ∈ steps ∧ step ≠ dot ∧ step ≠ dotDot := by
    intro step member
    obtain ⟨inside, plain⟩ := List.mem_filter.1 member
    refine ⟨inside, by simpa using plain, fun climbs => level (climbs ▸ inside)⟩
  refine ⟨fun step member => (split step member).2, fun step member => ?_⟩
  obtain ⟨inside, noDot, noDots⟩ := split step member
  exact Goes.short reaches step inside noDot noDots

end Volume

end ControlPlane
