import ControlPlane.Proofs.Transfer.Paths
import ControlPlane.Proofs.Volume.Altering
import ControlPlane.Transfer.Copy
-- Carrying out entries.
namespace ControlPlane.Transfer

open Volume

variable {source model target middle after : Volume} {entry : TransferEntry}
  {entries : List TransferEntry} {names : List String} {src path : String}
  {done summary : TransferSummary}

-- An entry brings what a volume holds at its destination.
structure Fits (source model : Volume) (entry : TransferEntry) (names : List String) : Prop where
  dest : entry.dest = cleanText names
  some : names ≠ []
  clean : ∀ name ∈ names, IsCleanName name
  storable : Storable names
  dir : entry.isDir = true → model.kindAt (placeFor names) = Option.some .dir
  file : entry.isDir = false → ∃ content, source.statPath entry.src = .ok (.file content) ∧
    model.kindAt (placeFor names) = Option.some (.file content)

def OnWay (entries : List TransferEntry) (place : List Name) : Prop :=
  ∃ entry ∈ entries, place <+: pathPlace entry.dest

theorem onWay_dest (member : entry ∈ entries) : OnWay entries (pathPlace entry.dest) :=
  ⟨entry, member, List.prefix_rfl⟩

theorem Fits.place (fits : Fits source model entry names) : pathPlace entry.dest = placeFor names := by
  rw [fits.dest, pathPlace_cleanText fits.some fits.clean]

theorem Fits.there (fits : Fits source model entry names) : model.kindAt (placeFor names) ≠ none := by
  cases isDir : entry.isDir with
  | true => simp [fits.dir isDir]
  | false =>
    obtain ⟨content, _, file⟩ := fits.file isDir
    simp [file]

theorem Fits.steps (fits : Fits source model entry names) :
    pathSteps entry.dest = .ok (names.map bytesOf) := by
  rw [fits.dest, cleanText_of_ne_nil fits.some, pathSteps_joinNames fits.some fits.clean,
    if_neg fits.storable.no_nul]

theorem Fits.parts (fits : Fits source model entry names) :
    partsOf (bytesOf entry.dest) = names.map bytesOf := by
  rw [fits.dest, cleanText_of_ne_nil fits.some, (steps_joinNames fits.some fits.clean).2]

theorem Fits.named (fits : Fits source model entry names) : Named (names.map bytesOf) :=
  named_of_storable fits.clean fits.storable

theorem readFile_of_statPath {path : String} {content : File}
    (held : source.statPath path = .ok (.file content)) :
    (pathSteps path).bind source.readFile = .ok content := by
  obtain ⟨steps, read, stat⟩ := stat_of_statPath held
  rw [read]
  show source.readFile steps = .ok content
  rw [readFile, stat]

theorem makeDirectory_fills (fits : Fits source model entry names) (isDir : entry.isDir = true)
    (within : Within model target) (root : target.kindAt [rootName] = some .dir) :
    ∃ after, makeDirectory target entry.dest = (.ok (), after) ∧
      Fills model (OnWay [entry]) target after := by
  obtain ⟨after, made, fills⟩ := makeDirs_fills fits.named within root (fits.dir isDir)
  refine ⟨after, ?_, fills.of_iff fun place => ?_⟩
  · rw [makeDirectory, fits.steps, fits.parts]
    exact made
  · simp [OnWay, fits.place, placeFor]

theorem copyFile_fills (fits : Fits source model entry names) (isFile : entry.isDir = false)
    (within : Within model target) (root : target.kindAt [rootName] = some .dir)
    (missing : target.kindAt (pathPlace entry.dest) = none) :
    ∃ size after, copyFile source target entry.src entry.dest = (.ok size, after) ∧
      Fills model (OnWay [entry]) target after := by
  obtain ⟨content, held, there⟩ := fits.file isFile
  obtain ⟨front, last, rfl⟩ := (List.eq_nil_or_concat names).resolve_left fits.some
  rw [List.concat_eq_append] at fits there
  rw [fits.place] at missing
  have spelled : (front ++ [last]).map bytesOf = front.map bytesOf ++ [bytesOf last] := by simp
  have named := fits.named
  have steps := fits.steps
  rw [placeFor, spelled] at there missing
  rw [spelled] at named steps
  have above : model.kindAt (rootName :: front.map bytesOf) = some .dir := by
    have exists_ : model.kindAt (rootName :: front.map bytesOf ++ [bytesOf last]) ≠ none := by
      rw [List.cons_append, there]
      simp
    exact Node.kindAt_above (List.cons_ne_nil _ []) exists_
  obtain ⟨middle, made, dirs⟩ := makeDirs_fills named.left within root above
  rw [← dirs.others _ fun part => absurd part.length_le (by simp)] at missing
  obtain ⟨after, wrote, file⟩ := writeFile_fills named
    ((dirs.filled _ List.prefix_rfl).trans above) missing there
  refine ⟨content.octets.length, after, ?_, (dirs.trans file).of_iff fun place => ?_⟩
  · simp only [copyFile, steps, named.above, List.dropLast_concat, made,
      readFile_of_statPath held, wrote]
  · simp only [OnWay, List.mem_singleton, exists_eq_left, fits.place, placeFor, spelled]
    rw [← List.cons_append, List.prefix_concat_iff, or_comm]

-- What a file goes to is above no other place of something that fits.
theorem Fits.not_onWay {other : TransferEntry} {more : List String}
    (fits : Fits source model entry names) (isFile : entry.isDir = false)
    (others : Fits source model other more) (away : pathPlace other.dest ≠ pathPlace entry.dest) :
    ¬ OnWay [other] (pathPlace entry.dest) := by
  rintro ⟨_, same, part⟩
  rw [List.mem_singleton.1 same] at part
  obtain ⟨content, _, file⟩ := fits.file isFile
  have there := others.there
  rw [← fits.place] at file
  rw [← others.place] at there
  rcases kindAt_front there part with whole | dir
  · exact away whole.symm
  · rw [file] at dir
    cases dir

-- Entries that fit fill a part of a volume in, in any order, when each file goes to a place
-- of its own where nothing is.
theorem copyEntries_fills
    (fits : ∀ entry ∈ entries, ∃ names, Fits source model entry names)
    (apart : (entries.map fun entry => pathPlace entry.dest).Nodup)
    (missing : ∀ entry ∈ entries, entry.isDir = false →
      target.kindAt (pathPlace entry.dest) = none)
    (within : Within model target) (root : target.kindAt [rootName] = some .dir) :
    ∃ summary after, copyEntries source done target entries = (.ok summary, after) ∧
      Fills model (OnWay entries) target after := by
  induction entries generalizing done target with
  | nil => exact ⟨done, target, rfl, fun _ ⟨_, inside, _⟩ => absurd inside List.not_mem_nil, fun _ _ => rfl⟩
  | cons entry rest ih =>
    obtain ⟨names, first⟩ := fits entry (by simp)
    -- One entry makes a part of what all of them make, and the root stays.
    rw [List.map_cons, List.nodup_cons] at apart
    have further : ∀ middle count, Fills model (OnWay [entry]) target middle →
        ∃ summary after, copyEntries source count middle rest = (.ok summary, after) ∧
          Fills model (OnWay (entry :: rest)) target after := by
      intro middle count one
      have rooted : middle.kindAt [rootName] = some .dir := by
        have same := within [rootName]
        have part : [rootName] <+: pathPlace entry.dest := by
          rw [first.place]
          exact List.prefix_append [rootName] _
        rw [one.filled _ ⟨entry, by simp, part⟩, ← same.resolve_left (by simp [root]), root]
      have still : ∀ e ∈ rest, e.isDir = false → middle.kindAt (pathPlace e.dest) = none := by
        intro e later isFile
        obtain ⟨more, second⟩ := fits e (by simp [later])
        have away : pathPlace entry.dest ≠ pathPlace e.dest := fun same =>
          apart.1 (List.mem_map.2 ⟨e, later, same.symm⟩)
        rw [one.others _ (second.not_onWay isFile first away)]
        exact missing e (by simp [later]) isFile
      obtain ⟨summary, after, ran, fills⟩ := @ih middle count
        (fun e later => fits e (by simp [later])) apart.2 still (one.within within) rooted
      refine ⟨summary, after, ran, (one.trans fills).of_iff fun place => ?_⟩
      simp [OnWay]
    rw [copyEntries]
    cases isDir : entry.isDir with
    | true =>
      obtain ⟨middle, made, one⟩ := makeDirectory_fills first isDir within root
      rw [if_pos rfl, made]
      exact further middle _ one
    | false =>
      obtain ⟨size, middle, copied, one⟩ := copyFile_fills first isDir within root
        (missing entry (by simp) isDir)
      rw [if_neg (by decide), copied]
      exact further middle _ one

theorem copyFile_ordered (ordered : target.Ordered) :
    (copyFile source target src path).2.Ordered := by
  unfold copyFile
  split
  · exact ordered
  rename_i steps read
  have dirs := ordered.makeDirs (stepsAbove steps)
  split
  · rename_i made
    rwa [made] at dirs
  rename_i middle made
  rw [made] at dirs
  split
  · exact dirs
  · split
    · exact dirs
    · rename_i wrote
      exact dirs.writeFile wrote

theorem makeDirectory_ordered (ordered : target.Ordered) :
    (makeDirectory target path).2.Ordered := by
  unfold makeDirectory
  split
  · exact ordered
  · exact ordered.makeDirs _

theorem copyEntries_ordered (ordered : target.Ordered) :
    (copyEntries source done target entries).2.Ordered := by
  induction entries generalizing done target with
  | nil => exact ordered
  | cons entry rest ih =>
    have made : (makeDirectory target entry.dest).2.Ordered := makeDirectory_ordered ordered
    have copied : (copyFile source target entry.src entry.dest).2.Ordered := copyFile_ordered ordered
    unfold copyEntries
    split
    · split
      · rename_i failed
        rwa [failed] at made
      · rename_i ran
        rw [ran] at made
        exact ih made
    · split
      · rename_i failed
        rwa [failed] at copied
      · rename_i ran
        rw [ran] at copied
        exact ih copied

theorem run_ordered (source : Volume) (ordered : target.Ordered) (opts : TransferOpts) :
    (run source target src opts).2.Ordered := by
  unfold run
  split
  · exact ordered
  · exact copyEntries_ordered ordered

def readOnlyAt (v : Volume) (path : String) : Bool :=
  match v.statPath path with
  | .ok (.file content) => content.readOnly
  | _ => false

def Writable (source : Volume) (entries : List TransferEntry) : Prop :=
  ∀ entry ∈ entries, entry.isDir = false → readOnlyAt source entry.src = false

instance (source : Volume) (entries : List TransferEntry) : Decidable (Writable source entries) :=
  inferInstanceAs (Decidable (∀ entry ∈ entries, _))

theorem readOnlyAt_file {content : File} (held : source.statPath path = .ok (.file content)) :
    readOnlyAt source path = content.readOnly := by
  rw [readOnlyAt, held]

end ControlPlane.Transfer
