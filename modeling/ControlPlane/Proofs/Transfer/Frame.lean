import ControlPlane.Executor.Host
import ControlPlane.Proofs.Transfer.RoundTrip
import ControlPlane.Proofs.Volume.Altering
import Mathlib.Algebra.GroupWithZero.Nat
-- What a transfer leaves as it is, however it ends, and what the same transfer comes to
-- once more: where a plan has been carried out it succeeds again, and writes what is
-- there.
namespace ControlPlane.Transfer

open Volume

variable {source target middle after later : Volume} {src path : String} {opts : TransferOpts}
  {entry : TransferEntry} {entries : List TransferEntry} {done summary : TransferSummary}
  {steps place : List Name} {size : Nat}

def sizeAt (v : Volume) (path : String) : Nat :=
  match v.statPath path with
  | .ok (.file content) => content.octets.length
  | _ => 0

def summaryOf (source : Volume) (entries : List TransferEntry) : TransferSummary where
  files := entries.countP (!·.isDir)
  directories := entries.countP (·.isDir)
  bytes := ((entries.filter (!·.isDir)).map fun e => sizeAt source e.src).sum

theorem copyFile_size (ran : copyFile source target src path = (.ok size, after)) :
    size = sizeAt source src := by
  obtain ⟨_, _, content, _, _, held, _, rfl⟩ := copyFile_cases ran
  rw [sizeAt, held]

theorem copyEntries_summary (ran : copyEntries source done target entries = (.ok summary, after)) :
    summary = ⟨done.files + (summaryOf source entries).files,
      done.directories + (summaryOf source entries).directories,
      done.bytes + (summaryOf source entries).bytes⟩ := by
  induction entries generalizing done target with
  | nil =>
    cases ran
    rfl
  | cons entry rest ih =>
    unfold copyEntries at ran
    split at ran
    · rename_i isDir
      split at ran
      · cases ran
      · rw [ih ran]
        simp [summaryOf, TransferSummary.withDirectory, isDir]
        omega
    · rename_i isFile
      split at ran
      · cases ran
      · rename_i size middle copied
        rw [ih ran, copyFile_size copied]
        simp [summaryOf, TransferSummary.withFile, isFile]
        omega

-- A target that holds at the place of an entry what the entry makes there, but for the
-- content of a file, which may be written.
structure Ready (target : Volume) (entry : TransferEntry) : Prop where
  reaches : ReachesPath target entry.dest
  dir : entry.isDir = true → target.kindAt (pathPlace entry.dest) = some .dir
  file : entry.isDir = false →
    ∃ held, target.kindAt (pathPlace entry.dest) = some (.file held) ∧ held.readOnly = false

theorem Ready.there (ready : Ready target entry) :
    target.kindAt (pathPlace entry.dest) ≠ none := by
  cases kind : entry.isDir with
  | true => simp [ready.dir kind]
  | false =>
    obtain ⟨held, file, _⟩ := ready.file kind
    simp [file]

theorem Ready.placed {other : TransferEntry} (ready : Ready target other)
    (placed : Placed source target after entry)
    (writable : entry.isDir = false → readOnlyAt source entry.src = false) :
    Ready after other := by
  refine ⟨ready.reaches.grows placed.grows (placed.grows.there _ ready.there),
    fun isDir => placed.grows.dirs _ (ready.dir isDir), fun isFile => ?_⟩
  by_cases here : entry.isDir = false ∧ pathPlace entry.dest = pathPlace other.dest
  · obtain ⟨content, held, written⟩ := placed.file here.1
    rw [here.2] at written
    exact ⟨content, written, readOnlyAt_file held ▸ writable here.1⟩
  · obtain ⟨held, file, off⟩ := ready.file isFile
    exact ⟨held, (placed.others _ held (away_of here)).2 file, off⟩

theorem Copied.files (copied : Copied source target after entries) (member : entry ∈ entries)
    (isFile : entry.isDir = false) : ∃ last ∈ entries, last.isDir = false ∧
      ∃ content, source.statPath last.src = .ok (.file content) ∧
        after.kindAt (pathPlace entry.dest) = some (.file content) := by
  obtain ⟨last, found⟩ := exists_lastTo member isFile
  obtain ⟨present, file, _⟩ := lastTo_eq_some found
  exact ⟨last, present, file, copied.written _ last found⟩

theorem Copied.there (copied : Copied source target after entries) (member : entry ∈ entries) :
    after.kindAt (pathPlace entry.dest) ≠ .none := by
  cases kind : entry.isDir with
  | true => simp [copied.dirs entry member kind]
  | false =>
    obtain ⟨_, _, _, content, _, file⟩ := copied.files member kind
    simp [file]

theorem Copied.ready (copied : Copied source target after entries)
    (writable : Writable source entries) (member : entry ∈ entries) : Ready after entry := by
  refine ⟨copied.reaches entry member, copied.dirs entry member, fun isFile => ?_⟩
  obtain ⟨last, present, file, content, held, there⟩ := copied.files member isFile
  exact ⟨content, there, readOnlyAt_file held ▸ writable last present file⟩

theorem Copied.above_onWay (copied : Copied source target after entries)
    (way : OnWay entries place) :
    (∃ entry ∈ entries, pathPlace entry.dest = place) ∨ after.kindAt place = some .dir := by
  obtain ⟨entry, member, part⟩ := way
  exact (kindAt_front (copied.there member) part).imp_left
    fun same => ⟨entry, member, same.symm⟩

theorem Copied.there_onWay (copied : Copied source target after entries)
    (way : OnWay entries place) : after.kindAt place ≠ .none := by
  rcases copied.above_onWay way with ⟨entry, member, same⟩ | dir
  · rw [← same]
    exact copied.there member
  · simp [dir]

end ControlPlane.Transfer
