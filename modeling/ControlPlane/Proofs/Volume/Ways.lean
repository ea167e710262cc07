import ControlPlane.Proofs.Volume.Kinds
import ControlPlane.Proofs.Volume.Steps
-- Where steps lead in a volume without links: to the place that the names among them
-- spell, by a way that stays open while the volume grows.
namespace ControlPlane

namespace Volume

def move (here : List Name) (step : Name) : List Name :=
  if step = dot then here else if step = dotDot then here.dropLast else here ++ [step]

def placeOf (steps : List Name) : List Name := steps.foldl move [rootName]

end Volume

def Spot.place : Spot → List Name
  | .taken place => place
  | .free dir name => dir ++ [name]

namespace Volume

-- The way from a place along steps, in a volume without links.
inductive Goes (v : Volume) : List Name → List Name → Spot → Prop where
  | arrive {here : List Name} : Goes v here [] (.taken here)
  | stay {here steps : List Name} {spot : Spot} (dir : v.kindAt here = some .dir)
      (rest : Goes v here steps spot) : Goes v here (dot :: steps) spot
  | climb {here steps : List Name} {spot : Spot} (dir : v.kindAt here = some .dir)
      (rest : Goes v here.dropLast steps spot) : Goes v here (dotDot :: steps) spot
  | enter {here steps : List Name} {spot : Spot} {name : Name} (dir : v.kindAt here = some .dir)
      (plain : name ≠ dot ∧ name ≠ dotDot) (short : name.length ≤ longestName)
      (there : v.kindAt (here ++ [name]) ≠ none) (rest : Goes v (here ++ [name]) steps spot) :
      Goes v here (name :: steps) spot
  | free {here : List Name} {name : Name} (dir : v.kindAt here = some .dir)
      (plain : name ≠ dot ∧ name ≠ dotDot) (short : name.length ≤ longestName)
      (missing : v.kindAt (here ++ [name]) = none) : Goes v here [name] (.free here name)

variable {v : Volume} {onLink : List Name → List Name → Except Fault Spot}
  {here steps : List Name} {spot : Spot}

theorem goes_of_follow (free : v.LinkFree) (ran : v.follow onLink here steps = .ok spot) :
    Goes v here steps spot := by
  induction steps generalizing here with
  | nil =>
    cases ran
    exact .arrive
  | cons step steps ih =>
    unfold follow at ran
    split at ran
    · cases ran
    · rename_i entries at_
      have dir : v.kindAt here = some .dir := kindAt_of_node at_
      have below := kindAt_child at_
      split at ran
      · rename_i single
        rw [single]
        exact .stay dir (ih ran)
      split at ran
      · rename_i double
        rw [double]
        exact .climb dir (ih ran)
      rename_i noDot noDots
      split at ran
      · cases ran
      rename_i fits
      have short : step.length ≤ longestName := Nat.le_of_not_lt fits
      split at ran
      · rename_i missing
        split at ran
        · rename_i last
          cases List.isEmpty_iff.1 last
          cases ran
          exact .free dir ⟨noDot, noDots⟩ short (by rw [below, missing]; rfl)
        · cases ran
      · rename_i target link
        exact absurd (by rw [below, link]; rfl) (free (here ++ [step]))
      · rename_i node _ held
        exact .enter dir ⟨noDot, noDots⟩ short (by rw [below, held]; simp) (ih ran)
    · cases ran

theorem follow_of_goes (free : v.LinkFree) (goes : Goes v here steps spot) :
    v.follow onLink here steps = .ok spot := by
  induction goes with
  | arrive => rfl
  | stay dir _ ih =>
    obtain ⟨entries, at_, _⟩ := entries_of_dir dir
    simp [Volume.follow, at_, ih]
  | climb dir _ ih =>
    obtain ⟨entries, at_, _⟩ := entries_of_dir dir
    simp [Volume.follow, at_, ih, show dotDot ≠ dot by decide]
  | @enter here steps spot name dir plain short there _ ih =>
    obtain ⟨entries, at_, below⟩ := entries_of_dir dir
    rw [below] at there
    cases held : entries.lookup name with
    | none => simp [held] at there
    | some node =>
      have noLink := free (here ++ [name])
      rw [below, held] at noLink
      cases node with
      | link target => exact absurd rfl noLink
      | file content => simp [Volume.follow, at_, plain, Nat.not_lt.2 short, held, ih]
      | dir inner => simp [Volume.follow, at_, plain, Nat.not_lt.2 short, held, ih]
  | @free here name dir plain short missing =>
    obtain ⟨entries, at_, below⟩ := entries_of_dir dir
    rw [below, Option.map_eq_none_iff] at missing
    simp [Volume.follow, at_, plain, Nat.not_lt.2 short, missing]

theorem Goes.place (goes : Goes v here steps spot) : spot.place = steps.foldl move here := by
  induction goes with
  | arrive => rfl
  | stay _ _ ih => exact ih
  | climb _ _ ih => exact ih
  | enter _ plain _ _ _ ih => simpa [move, plain] using ih
  | free _ plain _ _ => simp [move, plain, Spot.place]

theorem Goes.trans {more middle : List Name}
    (one : Goes v here steps (.taken middle)) (two : Goes v middle more spot) :
    Goes v here (steps ++ more) spot := by
  generalize reached : Spot.taken middle = at_ at one
  induction one with
  | arrive =>
    cases reached
    exact two
  | stay dir _ ih => exact .stay dir (ih reached)
  | climb dir _ ih => exact .climb dir (ih reached)
  | enter dir plain short there _ ih => exact .enter dir plain short there (ih reached)
  | free => cases reached

theorem Goes.split {more place : List Name} (goes : Goes v here (steps ++ more) (.taken place)) :
    ∃ middle, Goes v here steps (.taken middle) ∧ Goes v middle more (.taken place) := by
  induction steps generalizing here with
  | nil => exact ⟨here, .arrive, goes⟩
  | cons step steps ih =>
    rw [List.cons_append] at goes
    generalize others : steps ++ more = rest at goes
    cases goes with
    | stay dir way =>
      obtain ⟨middle, first, later⟩ := ih (others ▸ way)
      exact ⟨middle, .stay dir first, later⟩
    | climb dir way =>
      obtain ⟨middle, first, later⟩ := ih (others ▸ way)
      exact ⟨middle, .climb dir first, later⟩
    | enter dir plain short there way =>
      obtain ⟨middle, first, later⟩ := ih (others ▸ way)
      exact ⟨middle, .enter dir plain short there first, later⟩

theorem Goes.dir_of_dot {front place : List Name}
    (goes : Goes v here (front ++ [dot]) (.taken place)) : v.kindAt place = some .dir := by
  obtain ⟨middle, _, last⟩ := goes.split
  cases last with
  | stay dir rest =>
    cases rest
    exact dir
  | enter _ plain => exact absurd rfl plain.1

theorem Goes.inner_of_dotDot {front place : List Name} (root : v.kindAt [rootName] ≠ none)
    (goes : Goes v here (front ++ [dotDot]) (.taken place)) :
    ∃ name, v.kindAt (place ++ [name]) ≠ none := by
  obtain ⟨middle, _, last⟩ := goes.split
  cases last with
  | climb dir rest =>
    cases rest
    rcases List.eq_nil_or_concat middle with rfl | ⟨above, name, rfl⟩
    · exact ⟨rootName, root⟩
    · rw [List.concat_eq_append] at dir ⊢
      rw [List.dropLast_concat]
      exact ⟨name, by simp [dir]⟩
  | enter _ plain => exact absurd rfl plain.2

structure Grows (v w : Volume) : Prop where
  dirs : ∀ place, v.kindAt place = some .dir → w.kindAt place = some .dir
  there : ∀ place, v.kindAt place ≠ none → w.kindAt place ≠ none

theorem Grows.refl (v : Volume) : Grows v v := ⟨fun _ dir => dir, fun _ there => there⟩

theorem Grows.trans {u w : Volume} (one : Grows u v) (two : Grows v w) : Grows u w :=
  ⟨fun place dir => two.dirs place (one.dirs place dir),
    fun place there => two.there place (one.there place there)⟩

theorem Goes.grows {w : Volume} (grows : Grows v w) (goes : Goes v here steps spot)
    (filled : w.kindAt spot.place ≠ none) : Goes w here steps (.taken spot.place) := by
  induction goes with
  | arrive => exact .arrive
  | stay dir _ ih => exact .stay (grows.dirs _ dir) (ih filled)
  | climb dir _ ih => exact .climb (grows.dirs _ dir) (ih filled)
  | enter dir plain short there _ ih =>
    exact .enter (grows.dirs _ dir) plain short (grows.there _ there) (ih filled)
  | free dir plain short _ => exact .enter (grows.dirs _ dir) plain short filled .arrive

theorem Goes.start {place : List Name} (goes : Goes v here steps (.taken place)) :
    here = place ∨ v.kindAt here = some .dir := by
  cases goes with
  | arrive => exact .inl rfl
  | stay dir _ => exact .inr dir
  | climb dir _ => exact .inr dir
  | enter dir _ _ _ _ => exact .inr dir

theorem Goes.free_spot {dir : List Name} {name : Name} (goes : Goes v here steps (.free dir name)) :
    v.kindAt dir = some .dir ∧ v.kindAt (dir ++ [name]) = none := by
  generalize reached : Spot.free dir name = at_ at goes
  induction goes with
  | arrive => cases reached
  | stay _ _ ih => exact ih reached
  | climb _ _ ih => exact ih reached
  | enter _ _ _ _ _ ih => exact ih reached
  | free inside _ _ missing =>
    cases reached
    exact ⟨inside, missing⟩

theorem kindAt_rootName (v : Volume) : v.kindAt [rootName] = v.root?.map Node.kind := by
  rw [kindAt, Node.kindAt_cons]
  show v.root?.bind _ = _
  cases v.root? <;> rfl

theorem goes_of_spot (free : v.LinkFree) (ran : v.spot steps = .ok spot) :
    Goes v [rootName] steps spot := by
  unfold Volume.spot at ran
  split at ran
  · cases ran
  · exact goes_of_follow free ran

theorem spot_of_goes (free : v.LinkFree) (root : v.kindAt [rootName] ≠ none)
    (goes : Goes v [rootName] steps spot) : v.spot steps = .ok spot := by
  rw [kindAt_rootName] at root
  unfold Volume.spot
  split
  · rename_i none
    simp [none] at root
  · exact follow_of_goes free goes

theorem find_eq_ok {place : List Name} :
    v.find steps = .ok place ↔ v.spot steps = .ok (.taken place) := by
  unfold find
  split
  · rename_i path at_
    rw [at_, Except.ok.injEq, Except.ok.injEq, Spot.taken.injEq]
  · rename_i at_
    simp [at_]
  · rename_i at_
    simp [at_]

def Reaches (v : Volume) (steps : List Name) : Prop :=
  Goes v [rootName] steps (.taken (placeOf steps))

theorem Reaches.root (reaches : Reaches v steps) (there : v.kindAt (placeOf steps) ≠ none) :
    v.kindAt [rootName] ≠ none := by
  rcases reaches.start with same | dir
  · rwa [same]
  · simp [dir]

theorem stat_eq_ok {node : Node} (free : v.LinkFree) :
    v.stat steps = .ok node ↔ Reaches v steps ∧ v.node? (placeOf steps) = some node := by
  constructor
  · intro found
    obtain ⟨place, at_, here⟩ := find_of_stat found
    have goes := goes_of_spot free (find_eq_ok.1 at_)
    have same : place = placeOf steps := goes.place
    subst same
    exact ⟨goes, here⟩
  · rintro ⟨reaches, here⟩
    have root := reaches.root (by simp [kindAt_of_node here])
    exact stat_of_find (find_eq_ok.2 (spot_of_goes free root reaches)) here

theorem isDirAt_iff (free : v.LinkFree) :
    v.isDirAt steps = true ↔ Reaches v steps ∧ v.kindAt (placeOf steps) = some .dir := by
  constructor
  · intro dir
    unfold isDirAt at dir
    split at dir
    · rename_i node found
      obtain ⟨reaches, here⟩ := (stat_eq_ok free).1 found
      refine ⟨reaches, kindAt_eq_some.2 ⟨node, here, ?_⟩⟩
      cases node with
      | dir entries => rfl
      | file content => cases dir
      | link target => cases dir
    · cases dir
  · rintro ⟨reaches, dir⟩
    obtain ⟨entries, here, _⟩ := entries_of_dir dir
    unfold isDirAt
    rw [(stat_eq_ok free).2 ⟨reaches, here⟩]
    rfl

theorem isDirAt_of_goes {place : List Name} (free : v.LinkFree)
    (goes : Goes v [rootName] steps (.taken place)) (dir : v.kindAt place = some .dir) :
    v.isDirAt steps = true := by
  have same : place = placeOf steps := goes.place
  subst same
  exact (isDirAt_iff free).2 ⟨goes, dir⟩

theorem Goes.of_filter {place : List Name}
    (goes : Goes v here (steps.filter (· ≠ dot)) (.taken place))
    (dir : v.kindAt place = some .dir) : Goes v here steps (.taken place) := by
  induction steps generalizing here with
  | nil => exact goes
  | cons step steps ih =>
    by_cases single : step = dot
    · subst single
      simp only [ne_eq, not_true_eq_false, decide_false, Bool.false_eq_true, not_false_eq_true,
        List.filter_cons_of_neg] at goes
      have inside : v.kindAt here = some .dir := goes.start.elim (fun same => same ▸ dir) id
      exact .stay inside (ih goes)
    · rw [List.filter_cons_of_pos (by simpa using single)] at goes
      generalize others : steps.filter (· ≠ dot) = kept at goes
      cases goes with
      | stay => exact absurd rfl single
      | climb inside rest => exact .climb inside (ih (others ▸ rest))
      | enter inside plain short there rest =>
        exact .enter inside plain short there (ih (others ▸ rest))

def pathPlace (path : String) : List Name := placeOf (stepsOf (bytesOf path))

def Plain (steps : List Name) : Prop := ∀ step ∈ steps, step ≠ dot ∧ step ≠ dotDot

theorem plain_of_clean {names : List String} (clean : ∀ name ∈ names, IsCleanName name) :
    Plain (names.map bytesOf) := by
  intro step member
  obtain ⟨name, present, rfl⟩ := List.mem_map.1 member
  obtain ⟨_, single, double, _⟩ := clean name present
  exact ⟨fun same => single (bytesOf_injective same), fun same => double (bytesOf_injective same)⟩

theorem Plain.filter_dot {steps : List Name} (plain : Plain steps) :
    steps.filter (· ≠ dot) = steps := by
  rw [List.filter_eq_self]
  intro step member
  simpa using (plain step member).1

theorem foldl_move {steps here : List Name} (level : dotDot ∉ steps) :
    steps.foldl move here = here ++ steps.filter (· ≠ dot) := by
  induction steps generalizing here with
  | nil => simp
  | cons step rest ih =>
    rw [List.mem_cons, not_or] at level
    by_cases single : step = dot
    · rw [List.foldl_cons, move, if_pos single, ih level.2,
        List.filter_cons_of_neg (by simpa using single)]
    · rw [List.foldl_cons, move, if_neg single, if_neg (Ne.symm level.1), ih level.2,
        List.filter_cons_of_pos (by simpa using single), ← List.append_cons]

theorem placeOf_level {steps : List Name} (level : dotDot ∉ steps) :
    placeOf steps = rootName :: steps.filter (· ≠ dot) := foldl_move level

theorem Plain.level {steps : List Name} (plain : Plain steps) : dotDot ∉ steps :=
  fun climbs => (plain dotDot climbs).2 rfl

theorem pathPlace_joinNames {names : List String} (some : names ≠ [])
    (clean : ∀ name ∈ names, IsCleanName name) :
    pathPlace (joinNames names) = rootName :: names.map bytesOf := by
  have plain := plain_of_clean clean
  rw [pathPlace, (steps_joinNames some clean).1, placeOf_level plain.level, plain.filter_dot]

theorem placeOf_parts (path : Bytes) : placeOf (stepsOf path) = placeOf (partsOf path) := by
  unfold stepsOf
  split
  · rw [placeOf, List.foldl_append]
    rfl
  · rfl

theorem reaches_parts {path : Bytes} (dir : v.kindAt (placeOf (partsOf path)) = some .dir) :
    Reaches v (stepsOf path) ↔ Reaches v (partsOf path) := by
  rw [Reaches, placeOf_parts, stepsOf]
  split
  · constructor
    · intro goes
      obtain ⟨middle, first, last⟩ := goes.split
      cases last with
      | stay _ rest =>
        cases rest
        exact first
      | enter _ plain => exact absurd rfl plain.1
    · exact fun goes => Goes.trans goes (.stay dir .arrive)
  · rfl

def ReachesPath (v : Volume) (path : String) : Prop :=
  pathSteps path = .ok (stepsOf (bytesOf path)) ∧ Reaches v (stepsOf (bytesOf path))

theorem pathSteps_eq {path : String} (read : pathSteps path = .ok steps) :
    steps = stepsOf (bytesOf path) := by
  unfold pathSteps at read
  dsimp only at read
  split at read
  · cases read
  · split at read
    · cases read
    · exact (Except.ok.inj read).symm

theorem pathSteps_relative {path : String} (read : pathSteps path = .ok steps) :
    (bytesOf path).head? ≠ some 47 := by
  unfold pathSteps at read
  dsimp only at read
  split at read
  · cases read
  · split at read
    · cases read
    · assumption

theorem ReachesPath.grows {w : Volume} {path : String} (reaches : ReachesPath v path)
    (grows : Grows v w) (there : w.kindAt (pathPlace path) ≠ none) : ReachesPath w path :=
  ⟨reaches.1, Goes.grows grows reaches.2 there⟩

theorem statPath_eq_ok {path : String} {node : Node} (free : v.LinkFree) :
    v.statPath path = .ok node ↔ ReachesPath v path ∧ v.node? (pathPlace path) = some node := by
  constructor
  · intro found
    obtain ⟨steps, read, stat⟩ := stat_of_statPath found
    cases pathSteps_eq read
    obtain ⟨reaches, here⟩ := (stat_eq_ok free).1 stat
    exact ⟨⟨read, reaches⟩, here⟩
  · rintro ⟨⟨read, reaches⟩, here⟩
    rw [statPath, read]
    exact (stat_eq_ok free).2 ⟨reaches, here⟩

theorem statPath_file_iff {path : String} {content : File} (free : v.LinkFree) :
    v.statPath path = .ok (.file content) ↔
      ReachesPath v path ∧ v.kindAt (pathPlace path) = some (.file content) := by
  rw [statPath_eq_ok free, kindAt_eq_file]

theorem statPath_dir_iff {path : String} (free : v.LinkFree) :
    (∃ entries, v.statPath path = .ok (.dir entries)) ↔
      ReachesPath v path ∧ v.kindAt (pathPlace path) = some .dir := by
  constructor
  · rintro ⟨entries, found⟩
    obtain ⟨reaches, here⟩ := (statPath_eq_ok free).1 found
    exact ⟨reaches, kindAt_of_node here⟩
  · rintro ⟨reaches, dir⟩
    obtain ⟨entries, here, _⟩ := entries_of_dir dir
    exact ⟨entries, (statPath_eq_ok free).2 ⟨reaches, here⟩⟩

theorem statPath_unique {path other : String} {one two : Node} (free : v.LinkFree)
    (same : pathPlace path = pathPlace other) (first : v.statPath path = .ok one)
    (second : v.statPath other = .ok two) : one = two := by
  obtain ⟨_, here⟩ := (statPath_eq_ok free).1 first
  obtain ⟨_, there⟩ := (statPath_eq_ok free).1 second
  rw [same, there] at here
  exact (Option.some.inj here).symm

end Volume

end ControlPlane
