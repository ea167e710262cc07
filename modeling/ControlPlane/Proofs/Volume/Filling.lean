import ControlPlane.Proofs.Volume.Order
import ControlPlane.Proofs.Volume.Places
import ControlPlane.Volume.Edit
-- Making directories and files in a volume that holds a part of another one, at places
-- where the other has them: what is made is a larger part of it.
namespace ControlPlane.Volume

variable {model v w middle : Volume} {steps done : List Name} {place : List Name}
  {content : File} {P Q : List Name → Prop}

def Within (model v : Volume) : Prop :=
  ∀ place, v.kindAt place = none ∨ v.kindAt place = model.kindAt place

-- A later volume that holds at some places what the other one holds there, and is the same
-- elsewhere.
structure Fills (model : Volume) (P : List Name → Prop) (v w : Volume) : Prop where
  filled : ∀ place, P place → w.kindAt place = model.kindAt place
  others : ∀ place, ¬ P place → w.kindAt place = v.kindAt place

theorem Fills.within (fills : Fills model P v w) (within : Within model v) : Within model w := by
  intro place
  by_cases inside : P place
  · exact .inr (fills.filled place inside)
  · rw [fills.others place inside]
    exact within place

theorem Fills.trans (one : Fills model P v middle) (two : Fills model Q middle w) :
    Fills model (fun place => P place ∨ Q place) v w := by
  refine ⟨fun place inside => ?_, fun place outside => ?_⟩
  · by_cases later : Q place
    · exact two.filled place later
    · rw [two.others place later, one.filled place (inside.resolve_right later)]
  · rw [not_or] at outside
    rw [two.others place outside.2, one.others place outside.1]

theorem Fills.of_iff (fills : Fills model P v w) (same : ∀ place, P place ↔ Q place) :
    Fills model Q v w :=
  ⟨fun place inside => fills.filled place ((same place).2 inside),
    fun place outside => fills.others place fun inside => outside ((same place).1 inside)⟩

theorem fills_above (dir : v.kindAt place = some .dir) (same : model.kindAt place = some .dir) :
    Fills model (· <+: place) v v := by
  refine ⟨fun front part => ?_, fun _ _ => rfl⟩
  rw [kindAt_dir_front dir part, kindAt_dir_front same part]

theorem fills_put {node : Node} (bare : node.entries = [])
    (above : v.kindAt place.dropLast = some .dir) (leaf : v.kindAt place ≠ some .dir)
    (kind : model.kindAt place = some node.kind) :
    Fills model (· = place) v (v.put place node) := by
  refine ⟨fun other here => ?_, fun other away => ?_⟩
  · rw [here, kindAt_put bare above leaf, if_pos rfl, kind]
  · rw [kindAt_put bare above leaf, if_neg away]

theorem find_dir (named : Named steps) (dir : v.kindAt (rootName :: steps) = some .dir) :
    ∃ entries, v.find steps = .ok (rootName :: steps) ∧
      v.node? (rootName :: steps) = some (.dir entries) ∧
        ∀ name, v.kindAt (rootName :: (steps ++ [name])) = (entries.lookup name).map Node.kind := by
  obtain ⟨entries, at_, below⟩ := entries_of_dir dir
  exact ⟨entries, find_place named dir nofun, at_, below⟩

theorem isDirAt_dir (named : Named steps) (dir : v.kindAt (rootName :: steps) = some .dir) :
    v.isDirAt steps = true := by
  obtain ⟨entries, found, at_, _⟩ := find_dir named dir
  rw [isDirAt, stat_of_find found at_]
  rfl

variable {step : Name}

theorem makeDir_named (named : Named (done ++ [step]))
    (above : v.kindAt (rootName :: done) = some .dir) :
    (v.kindAt (rootName :: (done ++ [step])) = none →
      v.makeDir (done ++ [step]) = .ok (v.put (rootName :: (done ++ [step])) (.dir []))) ∧
    (v.kindAt (rootName :: (done ++ [step])) = some .dir → v.makeDir (done ++ [step]) = .ok v) := by
  obtain ⟨entries, found, at_, below⟩ := find_dir named.left above
  have plain := named.plain step (by simp)
  have short := named.short step (by simp)
  refine ⟨fun missing => ?_, fun dir => ?_⟩
  · rw [below, Option.map_eq_none_iff] at missing
    simp [makeDir, found, at_, plain, Nat.not_lt.2 short, missing]
  · have there := below step
    rw [dir] at there
    obtain ⟨node, held, _⟩ := Option.map_eq_some_iff.1 there.symm
    simp [makeDir, found, at_, plain, Nat.not_lt.2 short, held, isDirAt_dir named dir]

theorem makeDirsFrom_fills (named : Named (done ++ steps)) (within : Within model v)
    (above : v.kindAt (rootName :: done) = some .dir)
    (dir : model.kindAt (rootName :: (done ++ steps)) = some .dir) :
    ∃ w, v.makeDirsFrom done steps = (.ok (), w) ∧
      Fills model (· <+: rootName :: (done ++ steps)) v w := by
  induction steps generalizing v done with
  | nil =>
    rw [List.append_nil] at dir ⊢
    exact ⟨v, rfl, fills_above above dir⟩
  | cons step steps ih =>
    have first : Named (done ++ [step]) := by
      rw [List.append_cons] at named
      exact named.left
    obtain ⟨missing, there⟩ := makeDir_named first above
    rw [List.append_cons] at named dir ⊢
    have part : rootName :: (done ++ [step]) <+: rootName :: (done ++ [step] ++ steps) :=
      List.prefix_append (rootName :: (done ++ [step])) steps
    have here := kindAt_dir_front dir part
    -- What is missing is made, and what is there can only be a directory.
    rcases within (rootName :: (done ++ [step])) with none | same
    · have put : Fills model (· = rootName :: (done ++ [step])) v
          (v.put (rootName :: (done ++ [step])) (.dir [])) := by
        refine fills_put rfl ?_ (by simp [none]) here
        rw [← List.cons_append, List.dropLast_concat]
        exact above
      obtain ⟨w, made, fills⟩ := ih named (put.within within)
        (by rw [put.filled _ rfl, here]) dir
      refine ⟨w, ?_, (put.trans fills).of_iff fun place => ⟨?_, .inr⟩⟩
      · rw [makeDirsFrom, missing none]
        exact made
      · rintro (rfl | inside)
        · exact part
        · exact inside
    · rw [here] at same
      obtain ⟨w, made, fills⟩ := ih named within same dir
      refine ⟨w, ?_, fills⟩
      rw [makeDirsFrom, there same]
      exact made

theorem makeRoot_there (root : v.kindAt [rootName] ≠ none) : v.makeRoot = v := by
  unfold makeRoot
  split
  · rfl
  · rename_i none
    rw [kindAt_rootName, none] at root
    exact absurd rfl root

theorem makeDirs_named (named : Named steps) (root : v.kindAt [rootName] = some .dir) :
    v.makeDirs steps = v.makeDirsFrom [] steps := by
  have real := named.plain.filter_dot
  have rooted : v.makeRoot = v := makeRoot_there (by simp [root])
  have last : steps.getLast? ≠ some dot := fun same =>
    (named.plain dot (List.mem_of_getLast? same)).1 rfl
  rw [makeDirs, real, rooted, if_neg last]

theorem makeDirs_fills (named : Named steps) (within : Within model v)
    (root : v.kindAt [rootName] = some .dir)
    (dir : model.kindAt (rootName :: steps) = some .dir) :
    ∃ w, v.makeDirs steps = (.ok (), w) ∧ Fills model (· <+: rootName :: steps) v w := by
  rw [makeDirs_named named root]
  exact @makeDirsFrom_fills model v steps [] named within root dir

theorem Named.above (named : Named steps) : stepsAbove steps = steps.dropLast := by
  rw [stepsAbove, named.plain.filter_dot]

theorem writeFile_fills (named : Named (done ++ [step]))
    (above : v.kindAt (rootName :: done) = some .dir)
    (missing : v.kindAt (rootName :: (done ++ [step])) = none)
    (file : model.kindAt (rootName :: (done ++ [step])) = some (.file content)) :
    ∃ w, v.writeFile (done ++ [step]) content = .ok w ∧
      Fills model (· = rootName :: (done ++ [step])) v w := by
  have put : Fills model (· = rootName :: (done ++ [step])) v
      (v.put (rootName :: (done ++ [step])) (.file content)) := by
    refine fills_put rfl ?_ (by simp [missing]) file
    rw [← List.cons_append, List.dropLast_concat]
    exact above
  refine ⟨_, ?_, put⟩
  rw [writeFile, spot_free named above missing]
  rfl

end ControlPlane.Volume
