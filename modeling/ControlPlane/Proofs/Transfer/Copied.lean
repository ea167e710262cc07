import ControlPlane.Proofs.Volume.Making
import ControlPlane.Transfer.Copy
-- What a target holds once a plan has been carried out.
namespace ControlPlane.Transfer

open Volume

structure Placed (source before after : Volume) (entry : TransferEntry) : Prop where
  free : after.LinkFree
  grows : Grows before after
  reaches : ReachesPath after entry.dest
  dir : entry.isDir = true → after.kindAt (pathPlace entry.dest) = some .dir
  file : entry.isDir = false → ∃ content, source.statPath entry.src = .ok (.file content) ∧
    after.kindAt (pathPlace entry.dest) = some (.file content)
  others : ∀ place content, (entry.isDir = true ∨ pathPlace entry.dest ≠ place) →
    (after.kindAt place = some (.file content) ↔ before.kindAt place = some (.file content))

variable {source target after : Volume} {entry : TransferEntry} {entries : List TransferEntry}

theorem away_of {place : List Name}
    (away : ¬ (entry.isDir = false ∧ pathPlace entry.dest = place)) :
    entry.isDir = true ∨ pathPlace entry.dest ≠ place := by
  cases kind : entry.isDir with
  | true => exact .inl rfl
  | false => exact .inr fun same => away ⟨kind, same⟩

theorem Placed.there (placed : Placed source target after entry) :
    after.kindAt (pathPlace entry.dest) ≠ none := by
  cases kind : entry.isDir with
  | true => simp [placed.dir kind]
  | false =>
    obtain ⟨content, _, here⟩ := placed.file kind
    simp [here]

theorem makeDirectory_ok (free : target.LinkFree) (some : entry.dest ≠ "")
    (isDir : entry.isDir = true) (ran : makeDirectory target entry.dest = (.ok (), after)) :
    Placed source target after entry := by
  unfold makeDirectory at ran
  split at ran
  · cases ran
  · rename_i steps read
    obtain ⟨more, made⟩ := makeDirs_ok free ran
    have later := more.linkFree free
    have parts := partsOf_ne_nil (bytesOf_ne_nil some) (pathSteps_relative read)
    obtain ⟨reaches, dir⟩ := (isDirAt_iff later).1 (made parts)
    have place : pathPlace entry.dest = placeOf (partsOf (bytesOf entry.dest)) :=
      placeOf_parts _
    cases pathSteps_eq read
    exact {
      free := later
      grows := more.grows
      reaches := ⟨read, (reaches_parts dir).2 reaches⟩
      dir := fun _ => place ▸ dir
      file := fun file => by rw [isDir] at file; cases file
      others := fun place content _ => more.file_iff place }

theorem statPath_of_readFile {path : String} {content : File}
    (found : (pathSteps path).bind source.readFile = .ok content) :
    source.statPath path = .ok (.file content) := by
  unfold statPath
  cases read : pathSteps path with
  | error f =>
    rw [read] at found
    cases found
  | ok steps =>
    rw [read] at found
    exact stat_of_readFile found

theorem copyFile_cases {src dest : String} {size : Nat}
    (ran : copyFile source target src dest = (.ok size, after)) :
    ∃ steps middle content, pathSteps dest = .ok steps ∧
      target.makeDirs (stepsAbove steps) = (.ok (), middle) ∧
      source.statPath src = .ok (.file content) ∧ middle.writeFile steps content = .ok after ∧
      size = content.octets.length := by
  unfold copyFile at ran
  split at ran
  · cases ran
  rename_i steps read
  split at ran
  · cases ran
  rename_i middle made
  split at ran
  · cases ran
  rename_i content found
  split at ran
  · cases ran
  rename_i written wrote
  cases ran
  exact ⟨steps, middle, content, read, made, statPath_of_readFile found, wrote, rfl⟩

theorem copyFile_ok {size : Nat} (free : target.LinkFree) (isFile : entry.isDir = false)
    (ran : copyFile source target entry.src entry.dest = (.ok size, after)) :
    Placed source target after entry := by
  obtain ⟨steps, middle, content, read, made, held, wrote, _⟩ := copyFile_cases ran
  have more := (makeDirs_ok free made).1
  obtain ⟨writes, reaches⟩ := writeFile_ok (more.linkFree free) wrote
  cases pathSteps_eq read
  have here : after.kindAt (pathPlace entry.dest) = some (.file content) := by
    rw [writes.after]
    exact if_pos rfl
  exact {
    free := writes.linkFree (more.linkFree free)
    grows := more.grows.trans writes.grows
    reaches := ⟨read, reaches⟩
    dir := fun dir => by rw [isFile] at dir; cases dir
    file := fun _ => ⟨content, held, here⟩
    others := fun place other away => by
      have elsewhere : pathPlace entry.dest ≠ place :=
        away.resolve_left fun dir => by rw [isFile] at dir; cases dir
      rw [writes.after, if_neg fun same => elsewhere same.symm]
      exact more.file_iff place }

theorem copyFile_writable {src dest : String} {size : Nat} {old : File} (free : target.LinkFree)
    (ran : copyFile source target src dest = (.ok size, after))
    (file : target.kindAt (pathPlace dest) = some (.file old)) : old.readOnly = false := by
  obtain ⟨steps, middle, content, read, made, _, wrote, _⟩ := copyFile_cases ran
  have more := (makeDirs_ok free made).1
  have still := (more.file_iff _).2 file
  cases pathSteps_eq read
  exact writeFile_writable (more.linkFree free) wrote still

def lastTo (place : List Name) (entries : List TransferEntry) : Option TransferEntry :=
  entries.findRev? fun e => !e.isDir && pathPlace e.dest == place

theorem lastTo_cons (place : List Name) (entry : TransferEntry) (entries : List TransferEntry) :
    lastTo place (entry :: entries) = (lastTo place entries).or
      (if entry.isDir = false ∧ pathPlace entry.dest = place then some entry else none) := by
  simp only [lastTo, List.findRev?]
  cases entries.findRev? fun e => !e.isDir && pathPlace e.dest == place with
  | some e => rfl
  | none =>
    by_cases goes : entry.isDir = false ∧ pathPlace entry.dest = place
    · simp [goes]
    · simp only [goes, if_false, Option.or_none]
      split
      · rename_i found
        exact absurd (by simpa using found) goes
      · rfl

theorem lastTo_eq_some {place : List Name} {last : TransferEntry}
    (found : lastTo place entries = some last) :
    last ∈ entries ∧ last.isDir = false ∧ pathPlace last.dest = place := by
  rw [lastTo, List.findRev?_eq_find?_reverse] at found
  have goes := List.find?_some found
  simp only [Bool.and_eq_true, Bool.not_eq_true', beq_iff_eq] at goes
  exact ⟨List.mem_reverse.1 (List.mem_of_find?_eq_some found), goes⟩

theorem exists_lastTo (member : entry ∈ entries) (file : entry.isDir = false) :
    ∃ last, lastTo (pathPlace entry.dest) entries = some last := by
  rw [← Option.isSome_iff_exists, lastTo, List.findRev?_eq_find?_reverse, List.find?_isSome]
  exact ⟨entry, List.mem_reverse.2 member, by simp [file]⟩

structure Copied (source before after : Volume) (entries : List TransferEntry) : Prop where
  free : after.LinkFree
  grows : Grows before after
  reaches : ∀ e ∈ entries, ReachesPath after e.dest
  dirs : ∀ e ∈ entries, e.isDir = true → after.kindAt (pathPlace e.dest) = some .dir
  sources : ∀ e ∈ entries, e.isDir = false →
    ∃ content, source.statPath e.src = .ok (.file content)
  written : ∀ place e, lastTo place entries = some e →
    ∃ content, source.statPath e.src = .ok (.file content) ∧
      after.kindAt place = some (.file content)
  unwritten : ∀ place content, lastTo place entries = none →
    (after.kindAt place = some (.file content) ↔ before.kindAt place = some (.file content))

theorem Copied.none (free : target.LinkFree) : Copied source target target [] where
  free := free
  grows := .refl target
  reaches := by simp
  dirs := by simp
  sources := by simp
  written := by simp [lastTo]
  unwritten := by simp

theorem Copied.after_entry {middle : Volume} (first : Placed source target middle entry)
    (rest : Copied source middle after entries) :
    Copied source target after (entry :: entries) := by
  refine ⟨rest.free, first.grows.trans rest.grows, ?_, ?_, ?_, ?_, ?_⟩
  · intro e member
    rcases List.mem_cons.1 member with rfl | later
    · exact first.reaches.grows rest.grows (rest.grows.there _ first.there)
    · exact rest.reaches e later
  · intro e member dir
    rcases List.mem_cons.1 member with rfl | later
    · exact rest.grows.dirs _ (first.dir dir)
    · exact rest.dirs e later dir
  · intro e member isFile
    rcases List.mem_cons.1 member with rfl | later
    · obtain ⟨content, held, _⟩ := first.file isFile
      exact ⟨content, held⟩
    · exact rest.sources e later isFile
  · intro place e last
    rw [lastTo_cons, Option.or_eq_some_iff] at last
    rcases last with later | ⟨missing, here⟩
    · exact rest.written place e later
    · split at here
      · rename_i goes
        cases here
        obtain ⟨content, held, there⟩ := first.file goes.1
        rw [goes.2] at there
        exact ⟨content, held, (rest.unwritten place content missing).2 there⟩
      · cases here
  · intro place content missing
    rw [lastTo_cons, Option.or_eq_none_iff] at missing
    obtain ⟨later, here⟩ := missing
    have away : ¬ (entry.isDir = false ∧ pathPlace entry.dest = place) := fun goes => by
      rw [if_pos goes] at here
      cases here
    exact (rest.unwritten place content later).trans (first.others place content (away_of away))

section

variable {done summary : TransferSummary} {place : List Name} {content : File}

theorem copyEntries_cons (free : target.LinkFree) (some : entry.dest ≠ "")
    (ran : copyEntries source done target (entry :: entries) = (.ok summary, after)) :
    ∃ done' middle, Placed source target middle entry ∧
      (entry.isDir = false → ∀ old, target.kindAt (pathPlace entry.dest) = .some (.file old) →
        old.readOnly = false) ∧
      copyEntries source done' middle entries = (.ok summary, after) := by
  unfold copyEntries at ran
  split at ran
  · rename_i isDir
    split at ran
    · cases ran
    · rename_i middle made
      exact ⟨_, middle, makeDirectory_ok free some isDir made, by simp [isDir], ran⟩
  · rename_i isFile
    split at ran
    · cases ran
    · rename_i size middle copied
      exact ⟨_, middle, copyFile_ok free (Bool.eq_false_iff.2 isFile) copied,
        fun _ _ file => copyFile_writable free copied file, ran⟩

theorem copyEntries_ok (free : target.LinkFree) (some : ∀ e ∈ entries, e.dest ≠ "")
    (ran : copyEntries source done target entries = (.ok summary, after)) :
    Copied source target after entries := by
  induction entries generalizing done target with
  | nil =>
    cases ran
    exact .none free
  | cons entry rest ih =>
    rw [List.forall_mem_cons] at some
    obtain ⟨_, middle, first, _, later⟩ := copyEntries_cons free some.1 ran
    exact .after_entry first (ih first.free some.2 later)

end

end ControlPlane.Transfer
