import ControlPlane.Proofs.Transfer.Paths
-- What a pattern matches stands in the volume, and a match that is written as it stands
-- can be read as a path.
namespace ControlPlane

namespace Glob

open Volume

def Storing (v : Volume) : Prop :=
  ∀ name, Held v name → name.length ≤ longestName ∧ 0 ∉ name

theorem storing_of_descendants {v : Volume}
    (names : ∀ d ∈ v.topNode.descendants, ∀ name ∈ d.1, name.length ≤ longestName ∧ 0 ∉ name) :
    Storing v := by
  intro name held
  obtain ⟨place, entries, e, dir, member, rfl⟩ := held
  have there : v.kindAt (place ++ [e.1]) ≠ none := by
    rw [kindAt_child dir, ne_eq, Option.map_eq_none_iff, List.lookup_eq_none_iff]
    intro none
    simpa using none e member
  obtain ⟨kind, standing⟩ := Option.ne_none_iff_exists'.1 there
  obtain ⟨node, here, _⟩ := kindAt_eq_some.1 standing
  exact names _ (Node.mem_descendants (by simp) here) e.1 (by simp)

structure Stands (v : Volume) (place : List Name) : Prop where
  reaches : Reaches v place
  there : v.kindAt (placeOf place) ≠ none

variable {v : Volume} {dirsOnly : Bool} {ps : List Pattern} {place found : List Name} {name : Name}
  {entries : Entries}

theorem stands_of_dir (free : v.LinkFree) (dir : v.isDirAt place = true) : Stands v place := by
  obtain ⟨reaches, here⟩ := (isDirAt_iff free).1 dir
  exact ⟨reaches, by simp [here]⟩

theorem placeOf_concat (place : List Name) (name : Name) :
    placeOf (place ++ [name]) = move (placeOf place) name := by
  simp [placeOf, List.foldl_append]

theorem stands_dot (free : v.LinkFree) (dir : v.isDirAt place = true) (dots : name = dot ∨ name = dotDot) :
    Stands v (place ++ [name]) := by
  obtain ⟨reaches, here⟩ := (isDirAt_iff free).1 dir
  rcases dots with rfl | rfl
  · have same : placeOf (place ++ [dot]) = placeOf place := by rw [placeOf_concat, move, if_pos rfl]
    refine ⟨?_, by simp [same, here]⟩
    rw [Reaches, same]
    exact reaches.trans (.stay here .arrive)
  · have up : placeOf (place ++ [dotDot]) = (placeOf place).dropLast := by
      rw [placeOf_concat, move, if_neg (by decide), if_pos rfl]
    refine ⟨?_, ?_⟩
    · rw [Reaches, up]
      exact reaches.trans (.climb here .arrive)
    · rw [up, kindAt_dropLast (by simp [here])]
      simp

theorem stands_entry (named : v.WellNamed) (free : v.LinkFree) (storing : Storing v)
    (dir : v.stat place = .ok (.dir entries)) (held : entries.lookup name ≠ none) :
    Stands v (place ++ [name]) := by
  obtain ⟨reaches, here⟩ := (stat_eq_ok free).1 dir
  obtain ⟨node, found⟩ := Option.ne_none_iff_exists'.1 held
  have member : (name, node) ∈ entries := mem_of_lookup found
  have fits := (storing name (held_of_stat dir member)).1
  have proper := (held_of_stat dir member).proper named
  simp only [isProperName, Bool.and_eq_true, bne_iff_ne, ne_eq] at proper
  have plain : name ≠ dot ∧ name ≠ dotDot := ⟨proper.1.2, proper.2⟩
  have next : placeOf (place ++ [name]) = placeOf place ++ [name] := by
    rw [placeOf_concat, move, if_neg plain.1, if_neg plain.2]
  have there : v.kindAt (placeOf place ++ [name]) ≠ none := by
    rw [kindAt_child here, found]
    simp
  refine ⟨?_, by rwa [next]⟩
  rw [Reaches, next]
  exact reaches.trans (.enter (kindAt_of_node here) plain fits there .arrive)

theorem stands_of_namesAt (named : v.WellNamed) (free : v.LinkFree) (storing : Storing v)
    (member : name ∈ namesAt v place) : Stands v (place ++ [name]) := by
  unfold namesAt at member
  split at member
  · rename_i entries dir
    obtain ⟨e, present, rfl⟩ := List.mem_map.1 member
    apply stands_entry named free storing dir
    intro none
    simpa using List.lookup_eq_none_iff.1 none e present
  · cases member

theorem stands_of_lookUp (named : v.WellNamed) (free : v.LinkFree) (storing : Storing v)
    (member : found ∈ lookUp v place name) : Stands v found := by
  unfold lookUp at member
  split at member
  · split at member
    · rename_i dir
      cases List.mem_singleton.1 member
      exact stands_of_dir free dir
    · cases member
  · split at member
    · rename_i dots
      split at member
      · rename_i dir
        cases List.mem_singleton.1 member
        exact stands_dot free dir dots
      · cases member
    · split at member
      · rename_i entry
        cases List.mem_singleton.1 member
        unfold hasEntry at entry
        split at entry
        · rename_i entries dir
          exact stands_entry named free storing dir (Option.isSome_iff_ne_none.1 entry)
        · cases entry
      · cases member

theorem stands_of_placesBelow (named : v.WellNamed) (free : v.LinkFree) (storing : Storing v)
    {depth : Nat} (member : found ∈ placesBelow v depth place) : Stands v found := by
  induction depth generalizing place with
  | zero => cases member
  | succ depth ih =>
    unfold placesBelow at member
    obtain ⟨name, here, below⟩ := List.mem_flatMap.1 member
    cases List.mem_cons.1 below with
    | inl first => exact first ▸ stands_of_namesAt named free storing here
    | inr deeper => exact ih deeper

theorem dots_of_dotsFor {p : Pattern} (member : name ∈ dotsFor p) : name = dot ∨ name = dotDot := by
  unfold dotsFor at member
  split at member
  · have dots := (List.mem_filter.1 member).1
    simp only [List.mem_cons, List.not_mem_nil, or_false] at dots
    exact dots.symm
  · cases member

theorem stands_of_expand (named : v.WellNamed) (free : v.LinkFree) (storing : Storing v)
    {ps : List Pattern} {place : List Name} (member : found ∈ expand v dirsOnly ps place) :
    found = place ∨ Stands v found := by
  match ps with
  | [] =>
    unfold expand at member
    split at member
    · cases member
    · exact .inl (List.mem_singleton.1 member)
  | p :: rest =>
    have behind {place : List Name} (here : Stands v place)
        (later : found ∈ expand v dirsOnly rest place) : Stands v found := by
      cases stands_of_expand named free storing later with
      | inl same => exact same ▸ here
      | inr stands => exact stands
    right
    unfold expand at member
    split at member
    · obtain ⟨next, here, later⟩ := List.mem_flatMap.1 member
      exact behind (stands_of_lookUp named free storing here) later
    · split at member
      · cases rest with
        | nil => exact stands_of_placesBelow named free storing (List.mem_filter.1 member).1
        | cons q rest =>
          obtain ⟨next, here, later⟩ := List.mem_flatMap.1 member
          split at later
          · have stands := stands_of_placesBelow named free storing here
            cases stands_of_expand named free storing later with
            | inl same => exact same ▸ stands
            | inr stands => exact stands
          · cases later
      · split at member
        · rename_i dir
          obtain ⟨name, here, later⟩ := List.mem_flatMap.1 member
          refine behind ?_ later
          cases List.mem_append.1 here with
          | inl dots => exact stands_dot free dir (dots_of_dotsFor dots)
          | inr entries =>
            exact stands_of_namesAt named free storing (List.mem_filter.1 entries).1
        · cases member
termination_by ps.length

theorem Stands.trimDots (stands : Stands v place) : Stands v (trimDots place) := by
  obtain ⟨front, back, whole, one, two⟩ := trimDots_parts place
  obtain ⟨reaches, there⟩ := stands
  rw [Reaches] at reaches
  generalize placeOf place = last at reaches there
  rw [whole] at reaches
  obtain ⟨first, begins, way⟩ := reaches.split
  obtain ⟨middle, goes, ends⟩ := way.split
  have level : dotDot ∉ front := by
    intro up
    exact absurd (one dotDot up) (by decide)
  have start : first = [rootName] := by
    have moved : first = front.foldl move [rootName] := begins.place
    have still : front.filter (· ≠ dot) = [] := by
      rw [List.filter_eq_nil_iff]
      intro name member
      simpa using one name member
    rw [moved, foldl_move level, still, List.append_nil]
  subst start
  have same : middle = placeOf (Glob.trimDots place) := goes.place
  subst same
  refine ⟨goes, ?_⟩
  cases ends.start with
  | inl arrived => rwa [arrived]
  | inr dir => simp [dir]

def matchPath (place : List Name) : Bytes := [47].intercalate (trimDots place)

structure IsSource (path : String) : Prop where
  literal : isWild path = false
  plain : '\\' ∉ path.toList
  level : ".." ∉ segments path

theorem trimDots_eq_segments {path : String} (spelled : bytesOf path = matchPath place)
    (inner : trimDots place ≠ []) (names : ∀ name ∈ place, 47 ∉ name) :
    trimDots place = (segments path).map bytesOf := by
  have plain : ∀ name ∈ trimDots place, 47 ∉ name :=
    fun name member => names name (mem_of_mem_trimDots member)
  rw [← Transfer.splitOn_bytesOf, spelled, matchPath, List.splitOn_intercalate 47 plain inner]

theorem placeText_eq {path : String} (spelled : bytesOf path = matchPath place)
    (source : IsSource path) (names : ∀ name ∈ place, 47 ∉ name) : placeText place = path := by
  have text : joinNames ((trimDots place).map lossyTextOf) = path := by
    by_cases none : trimDots place = []
    · rw [matchPath, none] at spelled
      rw [none]
      exact (Transfer.bytesOf_eq_nil_iff.1 spelled).symm
    · rw [trimDots_eq_segments spelled none names, List.map_map, List.map_congr_left (g := id),
        List.map_id, joinNames_segments]
      intro segment _
      exact lossyTextOf_bytesOf segment
  rw [placeText, ← trimDots, text, plainSlashes_eq_self source.plain]

structure IsStep (name : Name) : Prop where
  some : name ≠ []
  plain : 47 ∉ name
  noNul : 0 ∉ name

theorem isStep_added (named : v.WellNamed) (storing : Storing v) (added : Added v ps name) :
    IsStep name := by
  cases added with
  | dot => exact ⟨by decide, by decide, by decide⟩
  | up => exact ⟨by decide, by decide, by decide⟩
  | held held =>
    have noNul := (storing name held).2
    have proper := held.proper named
    simp only [isProperName, Bool.and_eq_true, Bool.not_eq_true', List.isEmpty_eq_false_iff,
      List.contains_eq_mem, decide_eq_false_iff_not] at proper
    exact ⟨proper.1.1.1, proper.1.1.2, noNul⟩

theorem pathSteps_match {path : String} (spelled : bytesOf path = matchPath place)
    (inner : trimDots place ≠ []) (steps : ∀ name ∈ place, IsStep name) :
    pathSteps path = .ok (trimDots place) := by
  have texts := trimDots_eq_segments spelled inner fun name member => (steps name member).plain
  have split : (bytesOf path).splitOn 47 = trimDots place := by
    rw [Transfer.splitOn_bytesOf, texts]
  have parts : ∀ name ∈ trimDots place, IsStep name :=
    fun name member => steps name (mem_of_mem_trimDots member)
  have relative : (bytesOf path).head? ≠ some 47 := by
    intro slash
    obtain ⟨rest, whole⟩ := List.head?_eq_some_iff.1 slash
    rw [whole, List.splitOn_cons_eq_if_modifyHead, if_pos (by rfl)] at split
    have empty : [] ∈ trimDots place := by simp [← split]
    exact (parts [] empty).some rfl
  have noNul : 0 ∉ bytesOf path := by
    intro nul
    rw [← joinNames_segments path, zero_mem_joinNames] at nul
    obtain ⟨segment, member, inside⟩ := nul
    have present : bytesOf segment ∈ trimDots place := by
      rw [texts]
      exact List.mem_map_of_mem member
    exact (parts _ present).noNul inside
  unfold pathSteps
  dsimp only
  rw [if_neg (by simpa using noNul), if_neg relative,
    stepsOf_of_splitOn split fun name member => (parts name member).some]

end Glob

end ControlPlane
