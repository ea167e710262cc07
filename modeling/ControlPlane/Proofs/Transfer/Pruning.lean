import ControlPlane.Proofs.Transfer.Excludes
-- What more excludes change.
namespace ControlPlane.Transfer

section Parts

variable {α β ε : Type} {v : Volume} {excludes more : List Pattern}

structure Pruned (v : Volume) (excludes more : List Pattern) (path : α → String)
    (all left : List α) : Prop where
  part : left ⊆ all
  kept : ∀ a ∈ all, a ∈ left ∨ ∃ above, Below v excludes above (path a) ∧ ¬ Passes more above

variable {path : α → String} {all left : List α}

theorem Pruned.refl : Pruned v excludes more path all all :=
  ⟨List.Subset.refl _, fun _ member => .inl member⟩

theorem Pruned.cons (a : α) (pruned : Pruned v excludes more path all left) :
    Pruned v excludes more path (a :: all) (a :: left) := by
  refine ⟨List.cons_subset_cons a pruned.part, ?_⟩
  intro b member
  cases List.mem_cons.1 member with
  | inl first => exact .inl (by simp [first])
  | inr later => exact (pruned.kept b later).imp_left fun inside => by simp [inside]

theorem Pruned.append {all' left' : List α} (one : Pruned v excludes more path all left)
    (two : Pruned v excludes more path all' left') :
    Pruned v excludes more path (all ++ all') (left ++ left') := by
  refine ⟨List.append_subset.2 ⟨?_, ?_⟩, ?_⟩
  · exact List.Subset.trans one.part (List.subset_append_left ..)
  · exact List.Subset.trans two.part (List.subset_append_right ..)
  · intro a member
    cases List.mem_append.1 member with
    | inl front => exact (one.kept a front).imp_left (List.mem_append_left _)
    | inr back => exact (two.kept a back).imp_left (List.mem_append_right _)

theorem Pruned.filter (p : α → Bool) (pruned : Pruned v excludes more path all left) :
    Pruned v excludes more path (all.filter p) (left.filter p) := by
  refine ⟨List.filter_subset p pruned.part, ?_⟩
  intro a member
  obtain ⟨present, holds⟩ := List.mem_filter.1 member
  exact (pruned.kept a present).imp_left fun inside => List.mem_filter.2 ⟨inside, holds⟩

theorem Pruned.map {make : α → β} {path' : β → String} (same : ∀ a, path' (make a) = path a)
    (pruned : Pruned v excludes more path all left) :
    Pruned v excludes more path' (all.map make) (left.map make) := by
  refine ⟨List.map_subset make pruned.part, ?_⟩
  intro b member
  obtain ⟨a, present, rfl⟩ := List.mem_map.1 member
  rw [same]
  exact (pruned.kept a present).imp_left List.mem_map_of_mem

theorem Pruned.mapM {f g : β → Except ε (List α)} {l : List β} {lists : List (List α)}
    (one : ∀ b found, f b = .ok found →
      ∃ fewer, g b = .ok fewer ∧ Pruned v excludes more path found fewer)
    (ran : l.mapM f = .ok lists) : ∃ fewer, l.mapM g = .ok fewer ∧
      Pruned v excludes more path lists.flatten fewer.flatten := by
  simp only [mapM_eq_ok] at ran ⊢
  induction ran with
  | nil => exact ⟨[], .nil, .refl⟩
  | cons first _ ih =>
    obtain ⟨fewer, here, pruned⟩ := one _ _ first
    obtain ⟨others, later, rest⟩ := ih
    exact ⟨fewer :: others, .cons here later, pruned.append rest⟩

end Parts

variable {v : Volume} {excludes more : List Pattern} {start path src dest : String}
  {found : List (String × Bool)} {entries : List TransferEntry}

def Stricter (more excludes : List Pattern) : Prop :=
  ∀ path, Passes more path → Passes excludes path

theorem walkFrom_pruned {depth : Nat} (strict : Stricter more excludes)
    (walked : walkFrom v excludes depth path = .ok found) :
    ∃ fewer, walkFrom v more depth path = .ok fewer ∧
      Pruned v excludes more Prod.fst found fewer := by
  induction depth generalizing path found with
  | zero => cases walked
  | succ depth ih =>
    by_cases passes : Passes more path
    · cases walkStep_of_walkFrom walked with
      | leftOut out => exact absurd (strict path passes) out
      | leaf _ here plain => exact ⟨_, walkFrom_of_walkStep (.leaf passes here plain), .refl⟩
      | dir _ here below =>
        obtain ⟨fewer, ran, pruned⟩ := Pruned.mapM (fun _ _ walked => ih walked) below
        exact ⟨_, walkFrom_of_walkStep (.dir passes here ran), pruned.cons _⟩
    · refine ⟨[], walkFrom_of_walkStep (.leftOut passes), List.nil_subset _, ?_⟩
      intro f member
      exact .inr ⟨path, (below_of_walkFrom walked f member).1, passes⟩

theorem entriesFor_pruned {base : String} {fewer : List (String × Bool)}
    (pruned : Pruned v excludes more Prod.fst found fewer) :
    Pruned v excludes more TransferEntry.src (entriesFor dest base found)
      (entriesFor dest base fewer) := by
  unfold entriesFor
  apply Pruned.filter
  apply Pruned.map _ pruned
  exact fun _ => rfl

theorem walk_pruned {use : List (String × Bool) → List TransferEntry}
    (strict : Stricter more excludes)
    (mono : ∀ found fewer, Pruned v excludes more Prod.fst found fewer →
      Pruned v excludes more TransferEntry.src (use found) (use fewer))
    (planned : (walk v excludes path).map use = .ok entries) :
    ∃ fewer, (walk v more path).map use = .ok fewer ∧
      Pruned v excludes more TransferEntry.src entries fewer := by
  obtain ⟨found, walked, rfl⟩ := walkFrom_of_map planned
  obtain ⟨fewer, ran, pruned⟩ := walkFrom_pruned strict walked
  refine ⟨use fewer, ?_, mono found fewer pruned⟩
  rw [walk, ran]
  rfl

theorem planFile_pruned (strict : Stricter more excludes) (inner : path ≠ ".") :
    Pruned v excludes more TransferEntry.src (planFile excludes path dest)
      (planFile more path dest) := by
  by_cases passes : Passes more path
  · have one : isExcluded more path = false := passes.resolve_left inner
    have two : isExcluded excludes path = false := (strict path passes).resolve_left inner
    rw [planFile, planFile, one, two]
    exact .refl
  · have out : isExcluded more path = true := by
      rw [Passes, not_or, Bool.not_eq_false] at passes
      exact passes.2
    rw [show planFile more path dest = [] from if_pos out]
    refine ⟨List.nil_subset _, ?_⟩
    intro entry member
    obtain ⟨kept, rfl⟩ := mem_planFile member
    exact .inr ⟨path, .here (.inr kept), passes⟩

theorem planPlain_pruned (strict : Stricter more excludes)
    (planned : planPlain v excludes src dest = .ok entries) :
    ∃ fewer, planPlain v more src dest = .ok fewer ∧
      Pruned v excludes more TransferEntry.src entries fewer := by
  unfold planPlain at planned ⊢
  dsimp only at planned ⊢
  split at planned
  · cases planned
  · cases planned
  · split at planned
    · rename_i contents
      rw [if_pos contents]
      exact walk_pruned strict (fun _ _ pruned => entriesFor_pruned (pruned.filter _)) planned
    · rename_i whole
      rw [if_neg whole]
      split at planned
      · rename_i isDir
        rw [if_pos isDir]
        exact walk_pruned strict (fun _ _ pruned => entriesFor_pruned pruned) planned
      · rename_i file
        rw [if_neg file]
        cases planned
        exact ⟨_, rfl, planFile_pruned strict fun root => whole (.inr root)⟩

theorem Planned.eq_of_same {start' dest' : String} {one two : TransferEntry}
    (first : Planned v excludes start dest one) (second : Planned v excludes start' dest' two)
    (src_eq : one.src = two.src) (dest_eq : one.dest = two.dest) : one = two := by
  obtain ⟨node, here, kind⟩ := first.found
  obtain ⟨node', there, kind'⟩ := second.found
  rw [src_eq, there] at here
  cases here
  obtain ⟨oneSrc, oneDest, oneDir⟩ := one
  obtain ⟨twoSrc, twoDest, twoDir⟩ := two
  cases src_eq
  cases dest_eq
  cases kind
  cases kind'
  rfl

theorem planGlob_eq {glob : Glob} (read : Glob.read src = .ok glob)
    (some : glob.matchesOf v ≠ []) : planGlob v excludes src dest =
      ((glob.matchesOf v).mapM (planMatch v excludes dest)).map
        fun plans => withoutRepeats plans.flatten := by
  unfold planGlob
  rw [read]
  dsimp only
  split
  · rename_i none
    exact absurd none some
  · rfl

theorem matches_of_planGlob {glob : Glob} (read : Glob.read src = .ok glob)
    (planned : planGlob v excludes src dest = .ok entries) : glob.matchesOf v ≠ [] := by
  intro none
  rw [planGlob, read] at planned
  dsimp only at planned
  rw [none] at planned
  cases planned

-- Of entries that are repeated another one may be left than before, but it is the same.
theorem planGlob_pruned (strict : Stricter more excludes)
    (planned : planGlob v excludes src dest = .ok entries) :
    ∃ fewer, planGlob v more src dest = .ok fewer ∧
      Pruned v excludes more TransferEntry.src entries fewer := by
  obtain ⟨glob, plans, read, ran, rfl⟩ := planGlob_ok planned
  have one (found : String) (list : List TransferEntry)
      (planned : planMatch v excludes dest found = .ok list) :
      ∃ fewer, planMatch v more dest found = .ok fewer ∧
        Pruned v excludes more TransferEntry.src list fewer :=
    walk_pruned strict (fun _ _ pruned => entriesFor_pruned pruned) planned
  obtain ⟨fewer, again, pruned⟩ := Pruned.mapM one ran
  have origin (entry : TransferEntry) (member : entry ∈ plans.flatten) :
      ∃ start, Planned v excludes start dest entry := by
    obtain ⟨list, present, inside⟩ := List.mem_flatten.1 member
    obtain ⟨found, _, planned⟩ := exists_of_mem_mapM ran present
    exact ⟨found, planned_of_planMatch planned entry inside⟩
  have same (a b : TransferEntry) (first : a ∈ plans.flatten) (second : b ∈ plans.flatten)
      (src_eq : a.src = b.src) (dest_eq : a.dest = b.dest) : a = b := by
    obtain ⟨_, planned⟩ := origin a first
    obtain ⟨_, planned'⟩ := origin b second
    exact planned.eq_of_same planned' src_eq dest_eq
  refine ⟨withoutRepeats fewer.flatten, ?_, ?_, ?_⟩
  · rw [planGlob_eq read (matches_of_planGlob read planned), again]
    rfl
  · intro entry member
    have inside := pruned.part (mem_of_mem_withoutRepeats member)
    obtain ⟨first, kept, src_eq, dest_eq⟩ := exists_of_mem_withoutRepeats inside
    rwa [← same first entry (mem_of_mem_withoutRepeats kept) inside src_eq dest_eq]
  · intro entry member
    have inside := mem_of_mem_withoutRepeats member
    refine (pruned.kept entry inside).imp_left ?_
    intro left
    obtain ⟨first, kept, src_eq, dest_eq⟩ := exists_of_mem_withoutRepeats left
    have old := pruned.part (mem_of_mem_withoutRepeats kept)
    rwa [← same first entry old inside src_eq dest_eq]

def IsPattern (text : String) : Prop := ∃ p, Pattern.read text = .ok p

theorem exists_readExcludes {texts : List String} (valid : ∀ text ∈ texts, IsPattern text) :
    ∃ excludes, readExcludes texts = .ok excludes := by
  induction texts with
  | nil => exact ⟨[], rfl⟩
  | cons text rest ih =>
    obtain ⟨p, read⟩ := valid text (by simp)
    obtain ⟨others, later⟩ := ih fun other member => valid other (by simp [member])
    refine ⟨p :: others, ?_⟩
    rw [readExcludes, read]
    dsimp only
    rw [later]
    rfl

theorem isExcluded_read {texts : List String} (read : readExcludes texts = .ok excludes) :
    isExcluded excludes path = true ↔
      ∃ text ∈ texts, ∃ p, Pattern.read text = .ok p ∧ p.isMatch path = true := by
  induction texts generalizing excludes with
  | nil =>
    cases read
    simp [isExcluded]
  | cons text rest ih =>
    unfold readExcludes at read
    split at read
    · cases read
    · rename_i p here
      cases later : readExcludes rest with
      | error e => simp [later, Except.map] at read
      | ok others =>
        simp only [later, Except.map, Except.ok.injEq] at read
        subst read
        have behind : isExcluded others path = true ↔ _ := ih later
        have first : isExcluded (p :: others) path = true ↔
            p.isMatch path = true ∨ isExcluded others path = true := by simp [isExcluded]
        rw [first, behind, List.exists_mem_cons_iff]
        simp [here]

theorem walkFrom_congr (same : isExcluded excludes = isExcluded more) {depth : Nat} :
    walkFrom v excludes depth path = walkFrom v more depth path := by
  induction depth generalizing path with
  | zero => rfl
  | succ depth ih => simp only [walkFrom, same, ih]

theorem planPlain_congr (same : isExcluded excludes = isExcluded more) :
    planPlain v excludes src dest = planPlain v more src dest := by
  simp only [planPlain, planContents, planDirectory, planFile, walk, walkFrom_congr same, same]

theorem planGlob_congr (same : isExcluded excludes = isExcluded more) :
    planGlob v excludes src dest = planGlob v more src dest := by
  have matches_ : planMatch v excludes dest = planMatch v more dest := by
    funext found
    simp only [planMatch, walk, walkFrom_congr same]
  unfold planGlob
  rw [matches_]

theorem plan_congr {texts other : List String} (valid : ∀ text ∈ texts, IsPattern text)
    (members : ∀ text, text ∈ other ↔ text ∈ texts) :
    plan v src ⟨dest, other⟩ = plan v src ⟨dest, texts⟩ := by
  obtain ⟨excludes, read⟩ := exists_readExcludes valid
  have valid' : ∀ text ∈ other, IsPattern text :=
    fun text member => valid text ((members text).1 member)
  obtain ⟨excludes', read'⟩ := exists_readExcludes valid'
  have same : isExcluded excludes' = isExcluded excludes := by
    funext path
    rw [Bool.eq_iff_iff, isExcluded_read read', isExcluded_read read]
    simp only [members]
  simp only [plan, read, read', planGlob_congr same, planPlain_congr same]
  rfl

theorem stricter_read {front back : List String} {text : String}
    (read : readExcludes (front ++ back) = .ok excludes)
    (read' : readExcludes (front ++ text :: back) = .ok more) : Stricter more excludes := by
  intro path passes
  refine passes.imp_right ?_
  intro kept
  rw [← Bool.not_eq_true] at kept ⊢
  rw [isExcluded_read read]
  rw [isExcluded_read read'] at kept
  intro out
  obtain ⟨t, member, matched⟩ := out
  refine kept ⟨t, ?_, matched⟩
  simp only [List.mem_append, List.mem_cons] at member ⊢
  exact member.imp_right .inr

theorem Below.unhindered (below : Below v excludes start path) : Below v [] start path := by
  induction below with
  | here => exact .here (.inr rfl)
  | entry _ dir member _ ih => exact .entry ih dir member (.inr rfl)

theorem plan_pruned {front back : List String} {text : String} {p : Pattern}
    (valid : ∀ text ∈ front ++ back, IsPattern text) (pattern : Pattern.read text = .ok p)
    (planned : plan v src ⟨dest, front ++ back⟩ = .ok entries) :
    ∃ fewer, plan v src ⟨dest, front ++ text :: back⟩ = .ok fewer ∧ fewer ⊆ entries ∧
      ∀ entry ∈ entries, entry ∈ fewer ∨
        ∃ above, Below v [] above entry.src ∧ p.isMatch above = true := by
  obtain ⟨check, excludes, read, made⟩ := plan_ok planned
  have all : ∀ t ∈ front ++ text :: back, IsPattern t := by
    intro t member
    simp only [List.mem_append, List.mem_cons] at member
    rcases member with left | here | right
    · exact valid t (by simp [left])
    · exact ⟨p, by rw [here, pattern]⟩
    · exact valid t (by simp [right])
  obtain ⟨more, read'⟩ := exists_readExcludes all
  have strict := stricter_read read read'
  have pruned : ∃ fewer, plan v src ⟨dest, front ++ text :: back⟩ = .ok fewer ∧
      Pruned v excludes more TransferEntry.src entries fewer := by
    unfold plan
    rw [show TransferOpts.check ⟨dest, front ++ text :: back⟩ src = .ok () from check]
    dsimp only
    rw [read']
    dsimp only
    rcases made with ⟨wild, made⟩ | ⟨plain, made⟩
    · rw [if_pos wild]
      exact planGlob_pruned strict made
    · rw [if_neg (by simp [plain])]
      exact planPlain_pruned strict made
  obtain ⟨fewer, again, part, kept⟩ := pruned
  refine ⟨fewer, again, part, ?_⟩
  intro entry member
  refine (kept entry member).imp_right ?_
  intro lost
  obtain ⟨above, below, out⟩ := lost
  refine ⟨above, below.unhindered, ?_⟩
  -- The walk came by this path before, so none of the other patterns matches it.
  rw [Passes, not_or, Bool.not_eq_false] at out
  have before := below.start_passes.resolve_left out.1
  obtain ⟨t, present, q, reads, matched⟩ := (isExcluded_read read').1 out.2
  simp only [List.mem_append, List.mem_cons] at present
  have new : t = text := by
    apply Classical.byContradiction
    intro other
    have old : t ∈ front ++ back := by simpa [other] using present
    rw [(isExcluded_read read).2 ⟨t, old, q, reads, matched⟩] at before
    cases before
  rw [new, pattern] at reads
  cases reads
  exact matched

-- One more exclude, wherever it is put, makes no plan fail and adds nothing to it, and takes
-- away only what it matches and what lies below that. In which order the excludes stand and
-- how often does not count.
theorem excludes_only_remove {texts : List String} (valid : ∀ text ∈ texts, IsPattern text) :
    (∀ front back text p entries, texts = front ++ back → Pattern.read text = .ok p →
      plan v src ⟨dest, texts⟩ = .ok entries →
        ∃ fewer, plan v src ⟨dest, front ++ text :: back⟩ = .ok fewer ∧ fewer ⊆ entries ∧
          ∀ entry ∈ entries, entry ∈ fewer ∨
            ∃ above, Below v [] above entry.src ∧ p.isMatch above = true) ∧
    ∀ other : List String, (∀ text, text ∈ other ↔ text ∈ texts) →
      plan v src ⟨dest, other⟩ = plan v src ⟨dest, texts⟩ := by
  refine ⟨?_, fun other members => plan_congr valid members⟩
  intro front back text p entries parts pattern planned
  subst parts
  exact plan_pruned valid pattern planned

theorem excludes_only_remove_nestedFile : (∀ text ∈ ["c"], IsPattern text) ∧
    plan nestedFile "**/*" ⟨"out", ["c"]⟩ =
      .ok [⟨"a", "out/a", true⟩, ⟨"a/b", "out/a/b", false⟩, ⟨"a/b", "out/b", false⟩] ∧
    (∃ fewer, plan nestedFile "**/*" ⟨"out", ["a", "c"]⟩ = .ok fewer ∧
      fewer ⊆ [⟨"a", "out/a", true⟩, ⟨"a/b", "out/a/b", false⟩, ⟨"a/b", "out/b", false⟩]) ∧
    plan nestedFile "**/*" ⟨"out", ["a", "c"]⟩ = .ok [⟨"a/b", "out/b", false⟩] ∧
    plan nestedFile "**/*" ⟨"out", ["c", "c"]⟩ = plan nestedFile "**/*" ⟨"out", ["c"]⟩ := by
  have valid : ∀ text ∈ ["c"], IsPattern text := by
    intro text member
    cases List.mem_singleton.1 member
    exact ⟨_, rfl⟩
  have planned : plan nestedFile "**/*" ⟨"out", ["c"]⟩ =
      .ok [⟨"a", "out/a", true⟩, ⟨"a/b", "out/a/b", false⟩, ⟨"a/b", "out/b", false⟩] := rfl
  obtain ⟨remove, same⟩ := @excludes_only_remove nestedFile "**/*" "out" _ valid
  obtain ⟨fewer, again, part, _⟩ := remove [] ["c"] "a" _ _ rfl rfl planned
  exact ⟨valid, planned, ⟨fewer, again, part⟩, rfl, same ["c", "c"] (by simp)⟩

end ControlPlane.Transfer
