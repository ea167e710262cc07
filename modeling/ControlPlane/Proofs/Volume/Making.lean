import ControlPlane.Proofs.Volume.Ways
import ControlPlane.Volume.Edit
-- What making directories and writing a file do to a volume without links: directories
-- are added, or one place becomes a file.
namespace ControlPlane.Volume

structure Extends (v w : Volume) : Prop where
  kept : ∀ place, v.kindAt place ≠ none → w.kindAt place = v.kindAt place
  made : ∀ place, v.kindAt place = none → w.kindAt place = none ∨ w.kindAt place = some .dir

variable {u v w : Volume} {steps done : List Name} {content : File}

theorem Extends.refl (v : Volume) : Extends v v := ⟨fun _ _ => rfl, fun _ none => .inl none⟩

theorem Extends.trans (one : Extends u v) (two : Extends v w) : Extends u w := by
  refine ⟨fun place there => ?_, fun place missing => ?_⟩
  · have same := one.kept place there
    rw [two.kept place (same ▸ there), same]
  · rcases one.made place missing with still | dir
    · exact two.made place still
    · rw [two.kept place (by simp [dir])]
      exact .inr dir

theorem Extends.grows (more : Extends v w) : Grows v w := by
  refine ⟨fun place dir => ?_, fun place there => ?_⟩
  · rw [more.kept place (by simp [dir]), dir]
  · rw [more.kept place there]
    exact there

theorem Extends.linkFree (more : Extends v w) (free : v.LinkFree) : w.LinkFree := by
  intro place link
  by_cases missing : v.kindAt place = none
  · rcases more.made place missing with still | dir
    · rw [link] at still
      cases still
    · rw [link] at dir
      cases dir
  · rw [more.kept place missing] at link
    exact free place link

theorem Extends.file_iff (more : Extends v w) (place : List Name) :
    w.kindAt place = some (.file content) ↔ v.kindAt place = some (.file content) := by
  by_cases missing : v.kindAt place = none
  · rcases more.made place missing with still | dir
    · simp [missing, still]
    · simp [missing, dir]
  · rw [more.kept place missing]

theorem extends_put {place : List Name} (above : v.kindAt place.dropLast = some .dir)
    (missing : v.kindAt place = none) :
    Extends v (v.put place (.dir [])) ∧ (v.put place (.dir [])).kindAt place = some .dir := by
  have after : ∀ other, (v.put place (.dir [])).kindAt other =
      if other = place then some .dir else v.kindAt other :=
    fun other => kindAt_put rfl above (by simp [missing])
  refine ⟨⟨fun other there => ?_, fun other missing => ?_⟩, by rw [after, if_pos rfl]⟩
  · rw [after, if_neg]
    rintro rfl
    exact there missing
  · rw [after]
    split
    · exact .inr rfl
    · exact .inl missing

inductive MakesDir (v : Volume) (steps : List Name) : Volume → Prop where
  | there (dir : v.isDirAt steps = true) : MakesDir v steps v
  | new {parent : List Name} {name : Name} (way : Goes v [rootName] steps (.free parent name)) :
      MakesDir v steps (v.put (parent ++ [name]) (.dir []))

theorem makeDir_cases (free : v.LinkFree) (ran : v.makeDir steps = .ok w) :
    MakesDir v steps w := by
  unfold makeDir at ran
  split at ran
  · rename_i last
    cases List.getLast?_eq_none_iff.1 last
    split at ran
    · rename_i dir
      cases ran
      exact .there dir
    · cases ran
  · rename_i name last
    obtain ⟨front, rfl⟩ := List.getLast?_eq_some_iff.1 last
    rw [List.dropLast_concat] at ran
    split at ran
    · cases ran
    rename_i parent found
    have goes := goes_of_spot free (find_eq_ok.1 found)
    split at ran
    · rename_i entries at_
      have dir : v.kindAt parent = some .dir := kindAt_of_node at_
      have below := kindAt_child at_
      split at ran
      · rename_i dots
        cases ran
        rcases dots with rfl | rfl
        · exact .there (isDirAt_of_goes free (goes.trans (.climb dir .arrive))
            (kindAt_dropLast (by simp [dir])))
        · exact .there (isDirAt_of_goes free (goes.trans (.stay dir .arrive)) dir)
      split at ran
      · cases ran
      rename_i plain fits
      split at ran
      · rename_i missing
        cases ran
        have none : v.kindAt (parent ++ [name]) = none := by rw [below, missing]; rfl
        exact .new (goes.trans (.free dir (not_or.1 plain).symm (Nat.le_of_not_lt fits) none))
      · split at ran
        · rename_i dir
          cases ran
          exact .there dir
        · cases ran
    · cases ran
    · cases ran

theorem makeDir_ok (free : v.LinkFree) (ran : v.makeDir steps = .ok w) :
    Extends v w ∧ w.isDirAt steps = true := by
  cases makeDir_cases free ran with
  | there dir => exact ⟨.refl v, dir⟩
  | new way =>
    obtain ⟨above, missing⟩ := way.free_spot
    obtain ⟨more, made⟩ := extends_put (by rwa [List.dropLast_concat]) missing
    exact ⟨more, isDirAt_of_goes (more.linkFree free)
      (way.grows more.grows (by simp [Spot.place, made])) made⟩

theorem makeDirsFrom_ok (free : v.LinkFree) (ran : v.makeDirsFrom done steps = (.ok (), w)) :
    Extends v w ∧ (steps ≠ [] → w.isDirAt (done ++ steps) = true) := by
  induction steps generalizing v done with
  | nil =>
    cases ran
    exact ⟨.refl _, fun some => absurd rfl some⟩
  | cons step steps ih =>
    unfold makeDirsFrom at ran
    split at ran
    · cases ran
    · rename_i next made
      obtain ⟨more, dir⟩ := makeDir_ok free made
      obtain ⟨further, last⟩ := ih (more.linkFree free) ran
      refine ⟨more.trans further, fun _ => ?_⟩
      by_cases end_ : steps = []
      · subst end_
        cases ran
        exact dir
      · rw [List.append_cons]
        exact last end_

theorem makeRoot_extends (v : Volume) : Extends v v.makeRoot := by
  unfold makeRoot
  split
  · exact .refl v
  · rename_i missing
    exact (extends_put v.kindAt_root (by rw [kindAt_rootName, missing]; rfl)).1

theorem makeDirs_ok (free : v.LinkFree) (ran : v.makeDirs steps = (.ok (), w)) :
    Extends v w ∧ (steps ≠ [] → w.isDirAt steps = true) := by
  unfold makeDirs at ran
  dsimp only at ran
  have root := makeRoot_extends v
  have rooted := root.linkFree free
  split at ran
  · rename_i dotted
    split at ran
    · rename_i next made
      have more := root.trans (makeDirsFrom_ok rooted made).1
      split at ran
      · rename_i dir
        cases ran
        obtain ⟨reaches, there⟩ := (isDirAt_iff (more.linkFree free)).1 dir
        exact ⟨more, fun _ => isDirAt_of_goes (more.linkFree free) (reaches.of_filter there) there⟩
      · cases ran
    · rename_i failed
      exact absurd ran (failed w)
  · rename_i plain
    obtain ⟨further, last⟩ := makeDirsFrom_ok rooted ran
    have more := root.trans further
    refine ⟨more, fun some => ?_⟩
    have solid : steps.filter (· ≠ dot) ≠ [] := by
      obtain ⟨front, step, rfl⟩ := (List.eq_nil_or_concat steps).resolve_left some
      intro none
      rw [List.concat_eq_append] at plain none
      have dropped := List.filter_eq_nil_iff.1 none step (by simp)
      simp at dropped plain
      exact plain dropped
    obtain ⟨reaches, there⟩ := (isDirAt_iff (more.linkFree free)).1 (last solid)
    exact isDirAt_of_goes (more.linkFree free) (reaches.of_filter there) there

structure Writes (v w : Volume) (place : List Name) (content : File) : Prop where
  leaf : v.kindAt place ≠ some .dir
  after : ∀ other, w.kindAt other =
    if other = place then some (.file content) else v.kindAt other

theorem Writes.grows {place : List Name} (writes : Writes v w place content) : Grows v w := by
  refine ⟨fun other dir => ?_, fun other there => ?_⟩
  · rw [writes.after, if_neg, dir]
    rintro rfl
    exact writes.leaf dir
  · rw [writes.after]
    split
    · simp
    · exact there

theorem Writes.linkFree {place : List Name} (writes : Writes v w place content)
    (free : v.LinkFree) : w.LinkFree := by
  intro other
  rw [writes.after]
  split
  · simp
  · exact free other

theorem writes_put {place : List Name} (above : v.kindAt place.dropLast = some .dir)
    (leaf : v.kindAt place ≠ some .dir) : Writes v (v.put place (.file content)) place content :=
  ⟨leaf, fun _ => kindAt_put rfl above leaf⟩

theorem writeFile_cases (free : v.LinkFree) (ran : v.writeFile steps content = .ok w) :
    ∃ spot, Goes v [rootName] steps spot ∧ v.kindAt spot.place.dropLast = some .dir ∧
      v.kindAt spot.place ≠ some .dir ∧
      (∀ old, v.kindAt spot.place = some (.file old) → old.readOnly = false) ∧
      w = v.put spot.place (.file content) := by
  unfold writeFile at ran
  split at ran
  · cases ran
  · rename_i dir name at_
    cases ran
    have goes := goes_of_spot free at_
    obtain ⟨inside, missing⟩ := goes.free_spot
    exact ⟨_, goes, by rwa [Spot.place, List.dropLast_concat], by simp [Spot.place, missing],
      by simp [Spot.place, missing], rfl⟩
  · rename_i place at_
    split at ran
    · rename_i old here
      split at ran
      · cases ran
      rename_i writable
      cases ran
      have file : v.kindAt place = some (.file old) := kindAt_of_node here
      exact ⟨_, goes_of_spot free at_, kindAt_dropLast (by simp [Spot.place, file]),
        by simp [Spot.place, file], by simpa [Spot.place, file] using writable, rfl⟩
    · cases ran
    · cases ran

theorem writeFile_ok (free : v.LinkFree) (ran : v.writeFile steps content = .ok w) :
    Writes v w (placeOf steps) content ∧ Reaches w steps := by
  obtain ⟨spot, goes, above, leaf, _, rfl⟩ := writeFile_cases free ran
  have writes : Writes v _ spot.place content := writes_put above leaf
  have there : (v.put spot.place (.file content)).kindAt spot.place ≠ none := by
    simp [writes.after]
  have way := goes.grows writes.grows there
  have same : spot.place = placeOf steps := goes.place
  rw [same] at writes way ⊢
  exact ⟨writes, way⟩

theorem writeFile_writable {old : File} (free : v.LinkFree)
    (ran : v.writeFile steps content = .ok w)
    (file : v.kindAt (placeOf steps) = some (.file old)) : old.readOnly = false := by
  obtain ⟨spot, goes, _, _, writable, _⟩ := writeFile_cases free ran
  have same : spot.place = placeOf steps := goes.place
  exact writable old (same ▸ file)

theorem stat_of_readFile (ran : v.readFile steps = .ok content) :
    v.stat steps = .ok (.file content) := by
  unfold readFile at ran
  split at ran
  · cases ran
  · rename_i found
    cases ran
    exact found
  · cases ran

end ControlPlane.Volume
