import ControlPlane.Proofs.Transfer.Layout
import ControlPlane.Proofs.Transfer.Pruning
-- When a plan without excludes is empty.
namespace ControlPlane.Transfer

open Volume

variable {v : Volume} {path dest src start base name : String} {node : Node} {inside : Entries}
  {depth : Nat} {found : List (String × Bool)} {entries : List TransferEntry}

theorem stepsOf_lastName (some : lastName path ≠ "") :
    ∃ front, stepsOf (bytesOf path) = front ++ [bytesOf (lastName path)] := by
  have parts : (bytesOf path).splitOn 47 =
      (segments path).dropLast.map bytesOf ++ [bytesOf (lastName path)] := by
    rw [splitOn_bytesOf, ← List.map_singleton, ← List.map_append, ← segments_eq_lastName]
  have solid : bytesOf (lastName path) ≠ [] := bytesOf_ne_nil some
  have open_ : (bytesOf path).getLast? ≠ .some 47 := by
    intro slash
    obtain ⟨front, whole⟩ := List.getLast?_eq_some_iff.1 slash
    rw [whole, List.splitOn_append_cons_self] at parts
    have last := List.append_inj_right' parts (by simp)
    exact solid (by simpa using last.symm)
  rw [stepsOf, partsOf, if_neg open_, parts, List.filter_append, List.filter_cons_of_pos (by simpa using solid)]
  exact ⟨_, rfl⟩

theorem stepsOf_slash (none : lastName path = "") (some : path ≠ "") :
    ∃ front, stepsOf (bytesOf path) = front ++ [dot] := by
  have parts := segments_eq_lastName path
  rw [none] at parts
  have front : (segments path).dropLast ≠ [] := by
    intro bare
    rw [bare] at parts
    have text := joinNames_segments path
    rw [parts] at text
    exact some text.symm
  have text : path = joinNames (segments path).dropLast ++ "/" ++ "" := by
    rw [← joinNames_concat front, ← parts, joinNames_segments]
  have slash : (bytesOf path).getLast? = .some 47 := by
    rw [text, bytesOf_append_slash]
    simp [bytesOf, Utf8.encode]
  rw [stepsOf, if_pos slash]
  exact ⟨_, rfl⟩

theorem goes_of_statPath (free : v.LinkFree) (read : v.statPath path = .ok node) :
    v.node? (pathPlace path) = .some node ∧ v.kindAt [rootName] ≠ none ∧
      Goes v [rootName] (stepsOf (bytesOf path)) (.taken (pathPlace path)) := by
  obtain ⟨⟨_, reaches⟩, here⟩ := (statPath_eq_ok free).1 read
  have there : v.kindAt (pathPlace path) ≠ none := by simp [kindAt_of_node here]
  exact ⟨here, reaches.root there, reaches⟩

theorem inner_of_lastName (free : v.LinkFree) (read : v.statPath path = .ok node)
    (double : lastName path = "..") : ∃ name, v.kindAt (pathPlace path ++ [name]) ≠ none := by
  obtain ⟨_, root, goes⟩ := goes_of_statPath free read
  have some : lastName path ≠ "" := by
    rw [double]
    decide
  obtain ⟨front, ends⟩ := stepsOf_lastName some
  rw [ends, double, ← dotDot_eq_bytesOf] at goes
  exact goes.inner_of_dotDot root

theorem lastName_cases (path : String) : lastName path = "" ∨ lastName path = "." ∨
    lastName path = ".." ∨ IsCleanName (lastName path) := by
  have plain := no_slash_of_mem_segments (lastName_mem path)
  by_cases none : lastName path = ""
  · exact .inl none
  · by_cases single : lastName path = "."
    · exact .inr (.inl single)
    · by_cases double : lastName path = ".."
      · exact .inr (.inr (.inl double))
      · exact .inr (.inr (.inr ⟨none, single, double, plain⟩))

theorem isDir_of_lastName (free : v.LinkFree) (some : path ≠ "") (read : v.statPath path = .ok node)
    (odd : ¬ IsCleanName (lastName path)) : node.isDir = true := by
  obtain ⟨here, _, goes⟩ := goes_of_statPath free read
  have dir : v.kindAt (pathPlace path) = .some .dir := by
    rcases lastName_cases path with none | single | double | clean
    · obtain ⟨front, ends⟩ := stepsOf_slash none some
      rw [ends] at goes
      exact goes.dir_of_dot
    · have some : lastName path ≠ "" := by simp [single]
      obtain ⟨front, ends⟩ := stepsOf_lastName some
      rw [ends, single, ← dot_eq_bytesOf] at goes
      exact goes.dir_of_dot
    · obtain ⟨name, there⟩ := inner_of_lastName free read double
      have above := kindAt_dropLast there
      rwa [List.dropLast_concat] at above
    · exact absurd clean odd
  rw [kindAt_of_node here, Option.some.injEq] at dir
  rw [← kind_beq_dir, dir]
  rfl

theorem lastName_clean (free : v.LinkFree) (some : path ≠ "") (read : v.statPath path = .ok node)
    (plain : node.isDir = false) : IsCleanName (lastName path) := by
  apply Classical.byContradiction
  intro odd
  rw [isDir_of_lastName free some read odd] at plain
  cases plain

theorem lastName_stays (free : v.LinkFree) (read : v.statPath path = .ok (.dir [])) :
    lastName path ≠ ".." := by
  intro double
  obtain ⟨name, there⟩ := inner_of_lastName free read double
  rw [kindAt_child (goes_of_statPath free read).1] at there
  exact there rfl

theorem cleanText_concat_ne_root {names : List String}
    (clean : ∀ n ∈ names ++ [name], IsCleanName n) : cleanText (names ++ [name]) ≠ "." := by
  intro root
  have none := (cleanText_eq_dot clean).1 root
  simp at none

theorem cleanJoin_ne_root (clean : IsCleanName name) : cleanJoin dest name ≠ "." := by
  have single : ∀ n ∈ [name], IsCleanName n := by simpa using clean
  have all := cleanNames_segments_clean dest name
  rw [segments_of_no_slash clean.2.2.2, cleanNames_append single] at all
  rw [cleanJoin, segments_of_no_slash clean.2.2.2, cleanNames_append single]
  exact cleanText_concat_ne_root all

theorem destFor_child_ne_root (isBase : IsBase start base) (clean : IsCleanName name) :
    destFor dest base (childPath start name) ≠ "." := by
  unfold destFor
  split
  · exact childPath_ne_root clean
  · have single : ∀ n ∈ [name], IsCleanName n := by simpa using clean
    obtain ⟨front, all⟩ := cleanNames_stripBase (segments dest) isBase
    have whole : cleanNames (segments dest ++ segments (stripBase (childPath start name) base)) =
        front ++ [name] := all [name] single
    have clean := cleanNames_segments_clean dest (stripBase (childPath start name) base)
    rw [whole] at clean
    rw [cleanJoin, whole]
    exact cleanText_concat_ne_root clean

theorem found_start (walked : walkFrom v [] depth path = .ok found) :
    ∃ isDir, (path, isDir) ∈ found := by
  cases depth with
  | zero => cases walked
  | succ depth =>
    cases walkStep_of_walkFrom walked with
    | leftOut out => exact absurd (.inr rfl) out
    | dir => exact ⟨true, by simp⟩
    | leaf => exact ⟨false, by simp⟩

theorem found_entry {e : Name × Node} (walked : walkFrom v [] depth path = .ok found)
    (here : v.statPath path = .ok (.dir inside)) (member : e ∈ inside) :
    ∃ isDir, (childPath path (lossyTextOf e.1), isDir) ∈ found := by
  cases depth with
  | zero => cases walked
  | succ depth =>
    cases walkStep_of_walkFrom walked with
    | leftOut out => exact absurd (.inr rfl) out
    | leaf _ there plain =>
      rw [here] at there
      cases there
      cases plain
    | dir _ there below =>
      rw [here] at there
      cases there
      have listed := mem_sortTexts.2 (List.mem_map_of_mem (f := fun e => lossyTextOf e.1) member)
      obtain ⟨list, present, ran⟩ := mem_mapM_of_mem below listed
      obtain ⟨isDir, first⟩ := found_start ran
      exact ⟨isDir, List.mem_cons_of_mem _ (List.mem_flatten.2 ⟨list, present, first⟩)⟩

theorem mem_entriesFor_of_found {f : String × Bool} (member : f ∈ found)
    (other : destFor dest base f.1 ≠ ".") :
    ⟨f.1, destFor dest base f.1, f.2⟩ ∈ entriesFor dest base found := by
  unfold entriesFor
  apply List.mem_filter.2
  exact ⟨List.mem_map.2 ⟨f, member, rfl⟩, by simpa using other⟩

-- A walk from which nothing is planned but perhaps its start found an empty directory.
theorem inside_eq_nil {some : List (String × Bool)} (named : v.WellNamed) (isBase : IsBase start base)
    (walked : walkFrom v [] depth start = .ok found) (here : v.statPath start = .ok (.dir inside))
    (part : ∀ f ∈ found, f.1 ≠ start → f ∈ some) (none : entriesFor dest base some = []) :
    inside = [] := by
  cases inside with
  | nil => rfl
  | cons e rest =>
    have clean := lossyTextOf_clean (proper_of_statPath named here (List.mem_cons_self))
    have single : ∀ n ∈ [lossyTextOf e.1], IsCleanName n := by simpa using clean
    have below : childPath start (lossyTextOf e.1) ≠ start := by
      intro same
      have nothing := (descend_eq_self single).1 same
      cases nothing
    have other : destFor dest base (childPath start (lossyTextOf e.1)) ≠ "." :=
      destFor_child_ne_root isBase clean
    obtain ⟨isDir, member⟩ := found_entry walked here (List.mem_cons_self)
    have planned := mem_entriesFor_of_found (part _ member below) other
    rw [none] at planned
    cases planned

inductive Vacant (v : Volume) (src dest : String) : Prop where
  | empty (literal : isWild src = false) (here : v.statPath (trimSource src) = .ok (.dir [])) :
      Vacant v src dest
  | slashed {node : Node} (literal : isWild src = false) (slash : endsInSlash src = true)
      (here : v.statPath (trimSource src) = .ok node) (plain : node.isDir = false) :
      Vacant v src dest
  | matched (wild : isWild src = true) (given : dest ≠ "") (root : cleanJoin dest "" = ".")
      (empty : ∀ start, Starts v src start → v.statPath start = .ok (.dir []))
      (back : ∃ name, Glob.Held v name ∧ 92 ∈ name) : Vacant v src dest

theorem fileDest_ne_root (inner : path ≠ ".") (clean : IsCleanName (lastName path)) :
    fileDest path dest ≠ "." := by
  unfold fileDest
  split
  · exact inner
  · split
    · exact cleanJoin_ne_root clean
    · rename_i neither
      intro root
      exact neither (.inr root)

theorem file_inner (read : v.statPath path = .ok node) (plain : node.isDir = false) :
    path ≠ "." := by
  intro root
  rw [root] at read
  rw [(statPath_dot.1 read).2] at plain
  cases plain

theorem planPlain_file (free : v.LinkFree) (some : trimSource src ≠ "")
    (read : v.statPath (trimSource src) = .ok node) (plain : node.isDir = false) :
    planPlain v [] src dest = .ok (if endsInSlash src = true then []
      else [⟨trimSource src, fileDest (trimSource src) dest, false⟩]) := by
  have inner := file_inner read plain
  have clean := lastName_clean free some read plain
  unfold planPlain
  dsimp only
  rw [read]
  dsimp only
  by_cases slash : endsInSlash src = true
  · obtain ⟨depth, levels⟩ := exists_levels v
    have walked : walkFrom v [] v.levels (trimSource src) = .ok [(trimSource src, false)] := by
      rw [levels]
      exact walkFrom_of_walkStep (.leaf (.inr rfl) read plain)
    rw [if_pos (.inl slash), if_pos slash, planContents, walk, walked]
    simp [Except.mapError, Except.map, entriesFor]
  · have whole : ¬ (endsInSlash src = true ∨ trimSource src = ".") := by simp [slash, inner]
    rw [if_neg whole, if_neg (by simp [plain]), if_neg slash]
    simp [planFile, isExcluded, fileDest_ne_root inner clean]

theorem vacant_of_planPlain (named : v.WellNamed) (free : v.LinkFree) (literal : isWild src = false)
    (some : trimSource src ≠ "") (planned : planPlain v [] src dest = .ok []) : Vacant v src dest := by
  obtain ⟨node, here⟩ := found_of_planPlain planned
  cases isDir : node.isDir with
  | false =>
    by_cases slash : endsInSlash src = true
    · exact .slashed literal slash here isDir
    · rw [planPlain_file free some here isDir, if_neg slash] at planned
      cases planned
  | true =>
    cases node with
    | file content => cases isDir
    | link target => cases isDir
    | dir inside =>
      have vacant (none : inside = []) : Vacant v src dest := .empty literal (none ▸ here)
      apply vacant
      unfold planPlain at planned
      dsimp only at planned
      rw [here] at planned
      dsimp only at planned
      split at planned
      · obtain ⟨found, walked, none⟩ := walkFrom_of_map planned
        apply inside_eq_nil named (isBase_self _) walked here _ none.symm
        intro f member other
        exact List.mem_filter.2 ⟨member, by simpa using other⟩
      · obtain ⟨found, walked, none⟩ := walkFrom_of_map planned
        have isBase : IsBase (trimSource src)
            (if endsInSlash dest = true then parentOf (trimSource src) else trimSource src) := by
          split
          · exact isBase_parentOf _
          · exact isBase_self _
        exact inside_eq_nil named isBase walked here (fun _ member _ => member) none.symm

theorem destFor_match_ne_root (inner : path ≠ ".") (clean : IsCleanName (lastName path)) :
    destFor dest (parentOf path) path ≠ "." := by
  unfold destFor
  split
  · exact inner
  · rw [cleanJoin_stripBase_parentOf]
    exact cleanJoin_ne_root clean

theorem planMatch_nil (named : v.WellNamed) (free : v.LinkFree) (some : path ≠ "")
    (inner : path ≠ ".") (planned : planMatch v [] dest path = .ok []) :
    v.statPath path = .ok (.dir []) ∧ dest ≠ "" ∧ cleanJoin dest "" = "." ∧
      ¬ IsCleanName (lastName path) := by
  obtain ⟨found, walked, none⟩ := walkFrom_of_map planned
  obtain ⟨isDir, start⟩ := found_start walked
  have root : destFor dest (parentOf path) path = "." := by
    apply Classical.byContradiction
    intro other
    have entry := mem_entriesFor_of_found start other
    rw [← none] at entry
    cases entry
  have given : dest ≠ "" := by
    intro bare
    rw [destFor, if_pos bare] at root
    exact inner root
  have odd : ¬ IsCleanName (lastName path) := fun clean => destFor_match_ne_root inner clean root
  rw [destFor, if_neg given, cleanJoin_stripBase_parentOf] at root
  obtain ⟨node, here, _⟩ := (below_of_walkFrom walked _ start).2
  have dir := isDir_of_lastName free some here odd
  cases node with
  | file content => cases dir
  | link target => cases dir
  | dir inside =>
    have empty := inside_eq_nil named (isBase_parentOf path) walked here (fun _ member _ => member)
      none.symm
    rw [empty] at here
    refine ⟨here, given, ?_, odd⟩
    rw [cleanJoin, segments_lastName] at root
    rw [cleanJoin, show segments "" = [""] from rfl, ← root]
    rcases lastName_cases path with bare | single | double | clean
    · rw [bare]
    · rw [single, cleanNames, cleanNames, List.foldl_append, List.foldl_append]
      rfl
    · exact absurd double (lastName_stays free here)
    · exact absurd clean odd

theorem name_of_added {ps : List Pattern} {octets : Name} (named : v.WellNamed)
    (added : Glob.Added v ps octets) :
    octets = dot ∨ octets = dotDot ∨ IsCleanName (lossyTextOf octets) := by
  cases added with
  | dot => exact .inl rfl
  | up => exact .inr (.inl rfl)
  | held held => exact .inr (.inr (lossyTextOf_clean (held.proper named)))

theorem lastName_placeText {ps : List Pattern} {place : List Name} (named : v.WellNamed)
    (added : ∀ octets ∈ place, Glob.Added v ps octets) (plain : ∀ octets ∈ place, 92 ∉ octets)
    (some : Glob.placeText place ≠ "") :
    IsCleanName (lastName (Glob.placeText place)) ∨ lastName (Glob.placeText place) = ".." := by
  have text := Glob.placeText_of_plain plain
  have inner : Glob.trimDots place ≠ [] := by
    intro none
    rw [none] at text
    exact some text
  obtain ⟨front, last, ends, other⟩ := Glob.trimDots_ends inner
  have names : ∀ octets ∈ Glob.trimDots place,
      octets = dot ∨ octets = dotDot ∨ IsCleanName (lossyTextOf octets) :=
    fun octets member => name_of_added named (added octets (Glob.mem_of_mem_trimDots member))
  have texts : ∀ text ∈ (Glob.trimDots place).map lossyTextOf, '/' ∉ text.toList := by
    intro text member
    obtain ⟨octets, present, rfl⟩ := List.mem_map.1 member
    rcases names octets present with rfl | rfl | clean
    · decide
    · decide
    · exact clean.2.2.2
  have final : lastName (Glob.placeText place) = lossyTextOf last := by
    rw [text, lastName, segments_joinNames (by simpa using inner) texts, ends]
    simp
  rw [final]
  rcases names last (by simp [ends]) with single | rfl | clean
  · exact absurd single other
  · exact .inr (by decide)
  · exact .inl clean

theorem back_of_match {glob : Glob} (named : v.WellNamed) (free : v.LinkFree) (stays : StaysBelow src)
    (read : Glob.read src = .ok glob) (member : path ∈ glob.matchesOf v)
    (here : v.statPath path = .ok (.dir [])) (odd : ¬ IsCleanName (lastName path)) :
    ∃ octets, Glob.Held v octets ∧ 92 ∈ octets := by
  apply Classical.byContradiction
  intro noBack
  have some := match_ne_empty member
  obtain ⟨place, expanded, rfl⟩ := List.mem_map.1 (List.mem_filter.1 member).1
  have added := added_of_expand stays read expanded
  have plain : ∀ octets ∈ place, 92 ∉ octets := by
    intro octets present back
    cases added octets present with
    | dot => exact absurd back (by decide)
    | up => exact absurd back (by decide)
    | held held => exact noBack ⟨octets, held, back⟩
  cases lastName_placeText named added plain some with
  | inl clean => exact odd clean
  | inr double => exact lastName_stays free here double

theorem vacant_of_planGlob (named : v.WellNamed) (free : v.LinkFree) (wild : isWild src = true)
    (stays : StaysBelow src) (planned : planGlob v [] src dest = .ok []) : Vacant v src dest := by
  obtain ⟨glob, plans, read, ran, none⟩ := planGlob_ok planned
  have nothing : plans.flatten = [] := by
    apply List.eq_nil_iff_forall_not_mem.2
    intro entry member
    obtain ⟨first, kept, _⟩ := exists_of_mem_withoutRepeats member
    rw [← none] at kept
    cases kept
  have each : ∀ path ∈ glob.matchesOf v, v.statPath path = .ok (.dir []) ∧ dest ≠ "" ∧
      cleanJoin dest "" = "." ∧ ¬ IsCleanName (lastName path) := by
    intro path member
    obtain ⟨list, present, one⟩ := mem_mapM_of_mem ran member
    rw [List.flatten_eq_nil_iff.1 nothing list present] at one
    exact planMatch_nil named free (match_ne_empty member) (match_ne_root member) one
  obtain ⟨path, member⟩ := List.exists_mem_of_ne_nil _ (matches_of_planGlob read planned)
  obtain ⟨here, given, root, odd⟩ := each path member
  refine .matched wild given root ?_ (back_of_match named free stays read member here odd)
  intro start starts
  rcases starts with ⟨literal, _⟩ | ⟨_, glob', read', member'⟩
  · rw [wild] at literal
    cases literal
  · cases read.symm.trans read'
    exact (each start member').1

theorem plan_error_of_nothing (nothing : ∀ start, Starts v src start → ∀ node, v.statPath start ≠ .ok node) :
    ∃ e, plan v src ⟨dest, []⟩ = .error e := by
  cases planned : plan v src ⟨dest, []⟩ with
  | error e => exact ⟨e, rfl⟩
  | ok entries =>
    exfalso
    obtain ⟨_, excludes, read, ⟨wild, made⟩ | ⟨literal, made⟩⟩ := plan_ok planned
    · cases read
      obtain ⟨glob, plans, globRead, ran, _⟩ := planGlob_ok made
      obtain ⟨path, member⟩ := List.exists_mem_of_ne_nil _ (matches_of_planGlob globRead made)
      obtain ⟨list, _, one⟩ := mem_mapM_of_mem ran member
      obtain ⟨found, walked, _⟩ := walkFrom_of_map one
      obtain ⟨isDir, start⟩ := found_start walked
      obtain ⟨node, here, _⟩ := (below_of_walkFrom walked _ start).2
      exact nothing path (.inr ⟨wild, glob, globRead, member⟩) node here
    · obtain ⟨node, here⟩ := found_of_planPlain made
      exact nothing _ (.inl ⟨literal, rfl⟩) node here

theorem match_planned (free : v.LinkFree) (some : path ≠ "") (read : v.statPath path = .ok node)
    (plain : node.isDir = false) (planned : planMatch v [] dest path = .ok entries) :
    ∃ entry ∈ entries, entry.src = path := by
  obtain ⟨found, walked, rfl⟩ := walkFrom_of_map planned
  obtain ⟨isDir, start⟩ := found_start walked
  have clean := lastName_clean free some read plain
  exact ⟨_, mem_entriesFor_of_found start (destFor_match_ne_root (file_inner read plain) clean), rfl⟩

theorem planGlob_file {glob : Glob} (free : v.LinkFree) (read : Glob.read src = .ok glob)
    (member : path ∈ glob.matchesOf v) (here : v.statPath path = .ok node)
    (plain : node.isDir = false) (planned : planGlob v [] src dest = .ok entries) :
    ∃ entry ∈ entries, entry.src = path := by
  obtain ⟨glob', plans, read', ran, rfl⟩ := planGlob_ok planned
  cases read.symm.trans read'
  obtain ⟨list, present, one⟩ := mem_mapM_of_mem ran member
  obtain ⟨entry, inside, source⟩ := match_planned free (match_ne_empty member) here plain one
  obtain ⟨first, kept, same, _⟩ :=
    exists_of_mem_withoutRepeats (List.mem_flatten.2 ⟨list, present, inside⟩)
  exact ⟨first, kept, same.trans source⟩

theorem plan_file (free : v.LinkFree) (literal : isWild src = false)
    (valid : TransferOpts.check ⟨dest, []⟩ src = .ok ())
    (read : v.statPath (trimSource src) = .ok node) (plain : node.isDir = false) :
    plan v src ⟨dest, []⟩ = .ok (if endsInSlash src = true then []
      else [⟨trimSource src, fileDest (trimSource src) dest, false⟩]) := by
  have some := (trimSource_stays (TransferOpts.check_ok valid).2.1).1
  unfold plan
  rw [valid, show readExcludes [] = .ok [] from rfl]
  dsimp only
  rw [if_neg (by simp [literal]), planPlain_file free some read plain]

theorem vacant_of_plan (named : v.WellNamed) (free : v.LinkFree)
    (planned : plan v src ⟨dest, []⟩ = .ok []) : Vacant v src dest := by
  obtain ⟨valid, excludes, read, made⟩ := plan_ok planned
  cases read
  have stays := (TransferOpts.check_ok valid).2.1
  rcases made with ⟨wild, made⟩ | ⟨literal, made⟩
  · exact vacant_of_planGlob named free wild stays made
  · exact vacant_of_planPlain named free literal (trimSource_stays stays).1 made

-- Without excludes an empty plan comes from an empty directory, from a file with a slash at
-- the end of its path, or from matches that a backslash has left without a name, and these
-- are empty directories. Of a source that names nothing there is no plan, and a file that is
-- named is planned but for that slash.
theorem plan_without_excludes (named : v.WellNamed) (free : v.LinkFree) :
    (plan v src ⟨dest, []⟩ = .ok [] → Vacant v src dest) ∧
    ((∀ start, Starts v src start → ∀ node, v.statPath start ≠ .ok node) →
      ∃ e, plan v src ⟨dest, []⟩ = .error e) ∧
    ∀ start node, Starts v src start → v.statPath start = .ok node → node.isDir = false →
      (∀ entries, plan v src ⟨dest, []⟩ = .ok entries →
        (∃ entry ∈ entries, entry.src = start) ∨ (isWild src = false ∧ endsInSlash src = true)) ∧
      (isWild src = false → TransferOpts.check ⟨dest, []⟩ src = .ok () →
        plan v src ⟨dest, []⟩ = .ok (if endsInSlash src = true then []
          else [⟨start, fileDest start dest, false⟩])) := by
  refine ⟨vacant_of_plan named free, plan_error_of_nothing, ?_⟩
  intro start node starts here plain
  rcases starts with ⟨literal, rfl⟩ | ⟨wild, glob, globRead, member⟩
  · refine ⟨?_, fun _ valid => plan_file free literal valid here plain⟩
    intro entries planned
    rw [plan_file free literal (plan_ok planned).1 here plain] at planned
    by_cases slash : endsInSlash src = true
    · exact .inr ⟨literal, slash⟩
    · rw [if_neg slash] at planned
      cases planned
      exact .inl ⟨_, List.mem_singleton_self _, rfl⟩
  · refine ⟨?_, fun literal => by simp [wild] at literal⟩
    intro entries planned
    obtain ⟨_, excludes, read, ⟨_, made⟩ | ⟨literal, _⟩⟩ := plan_ok planned
    · cases read
      exact .inl (planGlob_file free globRead member here plain made)
    · rw [wild] at literal
      cases literal

def loneFile : Volume := .ofRoot (.dir [(bytesOf "f", .file ⟨[], false⟩)])

theorem plan_without_excludes_loneFile : loneFile.WellNamed ∧ loneFile.LinkFree ∧
    TransferOpts.check ⟨"out/", []⟩ "f" = .ok () ∧ loneFile.statPath "f" = .ok (.file ⟨[], false⟩) ∧
    plan loneFile "f" ⟨"out/", []⟩ = .ok [⟨"f", "out/f", false⟩] := by
  have named : loneFile.WellNamed := by decide
  have free : loneFile.LinkFree := linkFree_of_descendants (by decide)
  have valid : TransferOpts.check ⟨"out/", []⟩ "f" = .ok () := rfl
  have here : loneFile.statPath "f" = .ok (.file ⟨[], false⟩) := rfl
  have starts : Starts loneFile "f" "f" := .inl ⟨rfl, by decide⟩
  obtain ⟨_, _, files⟩ := @plan_without_excludes loneFile "out/" "f" named free
  exact ⟨named, free, valid, here, (files "f" _ starts here rfl).2 rfl valid⟩

-- A file that is asked for the contents of is left out without an error, though there is no
-- directory at that path.
theorem slashed_file_ignored : loneFile.WellNamed ∧ loneFile.LinkFree ∧ isWild "f/" = false ∧
    loneFile.statPath "f" = .ok (.file ⟨[], false⟩) ∧ loneFile.statPath "f/" = .error .notDirectory ∧
    plan loneFile "f/" ⟨"", []⟩ = .ok [] :=
  ⟨by decide, linkFree_of_descendants (by decide), rfl, rfl, rfl, rfl⟩

-- A backslash at the end of a name is read as a slash, and leaves the match without a name.
example : plan (.ofRoot (.dir [(bytesOf "a", .dir []), (bytesOf "a\\", .file ⟨[], false⟩)])) "?\\" ⟨".", []⟩ =
    .ok [] := rfl

end ControlPlane.Transfer
