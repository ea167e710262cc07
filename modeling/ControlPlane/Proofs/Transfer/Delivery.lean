import ControlPlane.Proofs.Transfer.Copied
import ControlPlane.Proofs.Transfer.Destinations
import ControlPlane.Proofs.Transfer.Paths
import ControlPlane.Proofs.Volume.Beside
-- What a transfer that succeeds has delivered.
namespace ControlPlane.Transfer

open Volume

def Delivered (source after : Volume) (entry : TransferEntry) : Prop :=
  ∃ content there, source.statPath entry.src = .ok (.file content) ∧
    after.statPath entry.dest = .ok (.file there) ∧ there.octets = content.octets

-- Two files for one place that do not hold the same octets.
def Clash (source : Volume) (one two : TransferEntry) : Prop :=
  one.isDir = false ∧ two.isDir = false ∧ pathPlace one.dest = pathPlace two.dest ∧
    ∃ first second, source.statPath one.src = .ok (.file first) ∧
      source.statPath two.src = .ok (.file second) ∧ first.octets ≠ second.octets

variable {source target after origin later : Volume} {src : String} {opts : TransferOpts}
  {entries : List TransferEntry} {summary : TransferSummary}

theorem run_ok (ran : run source target src opts = (.ok summary, after)) :
    ∃ entries, plan source src opts = .ok entries ∧
      copyEntries source .zero target entries = (.ok summary, after) := by
  unfold run at ran
  split at ran
  · cases ran
  · rename_i entries planned
    refine ⟨entries, planned, ?_⟩
    dsimp only at ran
    cases copied : copyEntries source .zero target entries with
    | mk answer left =>
      rw [copied] at ran
      cases answer with
      | error f => cases ran
      | ok count =>
        cases ran
        rfl

theorem Copied.last_arrives (copied : Copied source target after entries) :
    ∀ e ∈ entries, e.isDir = false → ∃ last content,
      lastTo (pathPlace e.dest) entries = some last ∧
        source.statPath last.src = .ok (.file content) ∧
          after.statPath e.dest = .ok (.file content) := by
  intro e member file
  obtain ⟨last, found⟩ := exists_lastTo member file
  obtain ⟨content, held, there⟩ := copied.written _ last found
  exact ⟨last, content, found, held,
    (statPath_file_iff copied.free).2 ⟨copied.reaches e member, there⟩⟩

theorem Copied.delivered_iff (copied : Copied source target after entries) :
    (∀ e ∈ entries, e.isDir = false → Delivered source after e) ↔
      ¬ ∃ one ∈ entries, ∃ two ∈ entries, Clash source one two := by
  constructor
  · rintro all ⟨one, first, two, second, file, file', same, content, content', held, held', differ⟩
    obtain ⟨c, there, read, arrived, whole⟩ := all one first file
    obtain ⟨c', there', read', arrived', whole'⟩ := all two second file'
    cases read.symm.trans held
    cases read'.symm.trans held'
    cases statPath_unique copied.free same arrived arrived'
    exact differ (whole.symm.trans whole')
  · intro none e member file
    obtain ⟨last, there, found, held', arrived⟩ := copied.last_arrives e member file
    obtain ⟨present, file', same⟩ := lastTo_eq_some found
    obtain ⟨content, held⟩ := copied.sources e member file
    refine ⟨content, there, held, arrived, ?_⟩
    by_contra differ
    exact none ⟨e, member, last, present, file, file', same.symm, content, there, held, held',
      Ne.symm differ⟩

theorem no_clash (named : source.WellNamed) (free : source.LinkFree)
    (planned : plan source src opts = .ok entries) (apart : isWild src = false ∨ opts.dest = "") :
    ¬ ∃ one ∈ entries, ∃ two ∈ entries, Clash source one two := by
  rintro ⟨one, first, two, second, _, _, same, content, content', held, held', differ⟩
  by_cases kept : opts.dest = ""
  · obtain ⟨_, _, all⟩ := planned_of_plan named planned
    obtain ⟨_, _, _, _, origin⟩ := all one first
    obtain ⟨_, _, _, _, origin'⟩ := all two second
    rw [origin.kept kept, origin'.kept kept] at same
    cases statPath_unique free same held held'
    exact differ rfl
  · obtain ⟨_, _, _, ⟨wild, _⟩ | ⟨_, made⟩⟩ := plan_ok planned
    · rw [apart.resolve_right kept] at wild
      cases wild
    · have source := (planPlain_ok made).src_eq named kept first second same
      rw [source, held'] at held
      cases held
      exact differ rfl

-- What a plan that stays inside its root takes is the same whatever stands beside the root.
theorem Contained.sources (contained : Contained entries) (free : source.LinkFree)
    (same : origin.root? = source.root?) :
    ∀ e ∈ entries, origin.statPath e.src = source.statPath e.src := fun e member =>
  statPath_beside same free fun climbs => (contained e member).1.2 (dotDot_mem_stepsOf.1 climbs)

theorem Contained.targets (contained : Contained entries) (free : after.LinkFree)
    (same : later.root? = after.root?) :
    ∀ e ∈ entries, later.statPath e.dest = after.statPath e.dest := fun e member =>
  statPath_beside same free fun climbs => (contained e member).2.2 (dotDot_mem_stepsOf.1 climbs)

-- After a transfer that stays inside its roots every directory of the plan is there, and at
-- the destination of every file is the last one that went to that place. All files have
-- arrived unless two of them clash, and none do without a pattern or without a destination.
-- What stands beside the roots when it is over does not matter.
theorem run_delivers (named : source.WellNamed) (linkFree : source.LinkFree)
    (targetLinkFree : target.LinkFree) (planned : plan source src opts = .ok entries)
    (stays : isWild src = true → Contained entries)
    (ran : run source target src opts = (.ok summary, after))
    (sourceRoot : origin.root? = source.root?) (targetRoot : later.root? = after.root?) :
    (∀ e ∈ entries, e.isDir = true → ∃ inner, later.statPath e.dest = .ok (.dir inner)) ∧
      (∀ e ∈ entries, e.isDir = false → ∃ last content,
        lastTo (pathPlace e.dest) entries = some last ∧
          origin.statPath last.src = .ok (.file content) ∧
            later.statPath e.dest = .ok (.file content)) ∧
      ((∀ e ∈ entries, e.isDir = false → Delivered origin later e) ↔
        ¬ ∃ one ∈ entries, ∃ two ∈ entries, Clash source one two) ∧
      (isWild src = false ∨ opts.dest = "" →
        ∀ e ∈ entries, e.isDir = false → Delivered origin later e) := by
  obtain ⟨entries', planned', done⟩ := run_ok ran
  cases planned.symm.trans planned'
  have copied := copyEntries_ok targetLinkFree (dest_ne_empty_of_plan named planned) done
  have contained := contained_of_plan named planned stays
  have sources := contained.sources linkFree sourceRoot
  have targets := contained.targets copied.free targetRoot
  have arrived : (∀ e ∈ entries, e.isDir = false → Delivered origin later e) ↔
      ∀ e ∈ entries, e.isDir = false → Delivered source after e := by
    refine forall₂_congr fun e member => ?_
    rw [Delivered, Delivered, sources e member, targets e member]
  rw [arrived, copied.delivered_iff]
  refine ⟨fun e member dir => ?_, fun e member file => ?_, .rfl, no_clash named linkFree planned⟩
  · rw [targets e member]
    exact (statPath_dir_iff copied.free).2 ⟨copied.reaches e member, copied.dirs e member dir⟩
  · obtain ⟨last, content, found, held, there⟩ := copied.last_arrives e member file
    refine ⟨last, content, found, ?_, ?_⟩
    · rw [sources last (lastTo_eq_some found).1, held]
    · rw [targets e member, there]

def twinFiles : Volume :=
  .ofRoot (.dir [(bytesOf "a", .dir [(bytesOf "f", .file ⟨[49], false⟩)]),
    (bytesOf "b", .dir [(bytesOf "f", .file ⟨[50], false⟩)])])

def emptyRoot : Volume := .ofRoot (.dir [])

def lastTwin : Volume := .ofRoot (.dir [(bytesOf "out", .dir [(bytesOf "f", .file ⟨[50], false⟩)])])

theorem run_delivers_twinFiles : twinFiles.WellNamed ∧ twinFiles.LinkFree ∧ emptyRoot.LinkFree ∧
    plan twinFiles "?/f" ⟨"", []⟩ = .ok [⟨"a/f", "a/f", false⟩, ⟨"b/f", "b/f", false⟩] ∧
    Contained [⟨"a/f", "a/f", false⟩, ⟨"b/f", "b/f", false⟩] ∧
    run twinFiles emptyRoot "?/f" ⟨"", []⟩ = (.ok ⟨2, 0, 2⟩, twinFiles) ∧
    ∀ e ∈ [(⟨"a/f", "a/f", false⟩ : TransferEntry), ⟨"b/f", "b/f", false⟩],
      e.isDir = false → Delivered twinFiles twinFiles e := by
  have named : twinFiles.WellNamed := by decide
  have source : twinFiles.LinkFree := linkFree_of_descendants (by decide)
  have target : emptyRoot.LinkFree := linkFree_of_descendants (by decide)
  have planned : plan twinFiles "?/f" ⟨"", []⟩ =
      .ok [⟨"a/f", "a/f", false⟩, ⟨"b/f", "b/f", false⟩] := rfl
  have contained : Contained [⟨"a/f", "a/f", false⟩, ⟨"b/f", "b/f", false⟩] := by decide
  have ran : run twinFiles emptyRoot "?/f" ⟨"", []⟩ = (.ok ⟨2, 0, 2⟩, twinFiles) := by
    rw [run, planned]
    rfl
  obtain ⟨_, _, _, all⟩ := run_delivers named source target planned (fun _ => contained) ran rfl rfl
  exact ⟨named, source, target, planned, contained, ran, all (.inr rfl)⟩

-- A pattern takes both files to one place. The transfer counts two files, and the first is
-- gone.
theorem twin_written_over : twinFiles.WellNamed ∧ twinFiles.LinkFree ∧ emptyRoot.LinkFree ∧
    plan twinFiles "*/f" ⟨"out", []⟩ = .ok [⟨"a/f", "out/f", false⟩, ⟨"b/f", "out/f", false⟩] ∧
    run twinFiles emptyRoot "*/f" ⟨"out", []⟩ = (.ok ⟨2, 0, 2⟩, lastTwin) ∧
    ¬ Delivered twinFiles lastTwin ⟨"a/f", "out/f", false⟩ := by
  have planned : plan twinFiles "*/f" ⟨"out", []⟩ =
      .ok [⟨"a/f", "out/f", false⟩, ⟨"b/f", "out/f", false⟩] := rfl
  have ran : run twinFiles emptyRoot "*/f" ⟨"out", []⟩ = (.ok ⟨2, 0, 2⟩, lastTwin) := by
    rw [run, planned]
    rfl
  refine ⟨by decide, linkFree_of_descendants (by decide), linkFree_of_descendants (by decide),
    planned, ran, ?_⟩
  rintro ⟨content, there, held, arrived, whole⟩
  have first : twinFiles.statPath "a/f" = .ok (.file ⟨[49], false⟩) := rfl
  have second : lastTwin.statPath "out/f" = .ok (.file ⟨[50], false⟩) := rfl
  cases first.symm.trans held
  cases second.symm.trans arrived
  exact absurd whole (by decide)

end ControlPlane.Transfer
