import ControlPlane.Proofs.Transfer.Carrying
import ControlPlane.Proofs.Transfer.Delivery
import ControlPlane.Proofs.Transfer.Layout
-- What a transfer without a destination brings into an empty volume is planned there
-- again: taken from there it changes nothing where it came from, and it fills another
-- empty volume in the same way.
namespace ControlPlane.Transfer

open Volume

variable {source origin part target : Volume} {excludes : List Pattern} {names more : List String}
  {kind : Kind} {entry : TransferEntry} {entries : List TransferEntry}

structure PlainPlan (origin : Volume) (excludes : List Pattern) (names : List String)
    (entries : List TransferEntry) : Prop extends PlainTree origin where
  clean : ∀ name ∈ names, IsCleanName name
  planned : planPlain origin excludes (cleanText names) "" = .ok entries

-- A volume that holds what a plan takes from another one, with the directories above that,
-- and nothing else.
structure Brought (source : Volume) (entries : List TransferEntry) (w : Volume) : Prop where
  part : Fills source (OnWay entries) emptyRoot w
  dirs : ∀ e ∈ entries, e.isDir = true → ∃ inner, w.statPath e.dest = .ok (.dir inner)
  files : ∀ e ∈ entries, e.isDir = false → Delivered source w e

theorem kindAt_emptyRoot (place : List Name) :
    emptyRoot.kindAt place = if place = [] ∨ place = [rootName] then some .dir else none := by
  cases place with
  | nil => rfl
  | cons name rest =>
    have child : emptyRoot.topNode.child? name =
        if name = rootName then some (.dir []) else none := by
      by_cases root : name = rootName
      · simp [emptyRoot, ofRoot, topNode, Node.child?, Node.entries, root]
      · simp [emptyRoot, ofRoot, topNode, Node.child?, Node.entries, root, List.lookup_cons,
          beq_false_of_ne root]
    rw [kindAt, Node.kindAt_cons, child]
    by_cases root : name = rootName
    · rw [if_pos root, Option.bind_some, Node.kindAt_bare rfl, root]
      simp [Node.kind]
    · rw [if_neg root, Option.bind_none, if_neg (by simp [root])]

theorem Fits.missing (fits : Fits source origin entry names) :
    emptyRoot.kindAt (pathPlace entry.dest) = none := by
  rw [fits.place, kindAt_emptyRoot, if_neg]
  simpa [placeFor] using fits.some

theorem emptyRoot_within (root : origin.kindAt [rootName] = some .dir) :
    Within origin emptyRoot := by
  intro place
  rw [kindAt_emptyRoot]
  split
  · rename_i top
    rcases top with rfl | rfl
    · exact .inr origin.kindAt_root.symm
    · exact .inr root.symm
  · exact .inl rfl

section

variable (within : Within origin part)

include within

theorem linkless_within (linkless : origin.Linkless) : part.Linkless := by
  intro place link
  rcases within (rootName :: place) with none | same
  · rw [none] at link
    cases link
  · exact linkless place (same ▸ link)

theorem spelled_within (spelled : origin.Spelled) : part.Spelled := by
  intro place name there
  exact spelled place name (((within _).resolve_left there) ▸ there)

end

namespace PlainPlan

variable (plan : PlainPlan origin excludes names entries)

include plan

theorem mem_iff (entry : TransferEntry) : entry ∈ entries ↔ Chosen origin excludes names entry :=
  mem_planPlain plan.linkless plan.spelled plan.clean plan.planned entry

theorem apart : (entries.map fun entry => pathPlace entry.dest).Nodup := by
  have level : ".." ∉ segments (trimSource (cleanText names)) := by
    rw [trimSource_cleanText plan.clean]
    exact level_cleanText plan.clean
  have none : ".." ∉ segments "" := by decide
  obtain ⟨list, laid⟩ := exists_laidOut plan.toPlainTree level none plan.planned
  exact (laid.apart level none).2

theorem clean_listed (listed : Listed origin excludes names more kind) :
    ∀ name ∈ names ++ more, IsCleanName name :=
  List.forall_mem_append.2 ⟨plan.clean, listed.clean⟩

theorem mem_of_listed (listed : Listed origin excludes names more kind) (inner : names ++ more ≠ []) :
    ⟨cleanText (names ++ more), cleanText (names ++ more), kind == .dir⟩ ∈ entries :=
  (plan.mem_iff _).2 ⟨more, kind, listed, inner, rfl⟩

theorem storable (listed : Listed origin excludes names more kind) (inner : names ++ more ≠ []) :
    Storable (names ++ more) := by
  obtain ⟨node, found, _⟩ :=
    (planned_of_planPlain plan.planned _ (plan.mem_of_listed listed inner)).found
  exact ((statPath_cleanText plan.linkless (plan.clean_listed listed)).1 found).1

theorem onWay (listed : Listed origin excludes names more kind) (inner : names ++ more ≠ []) :
    OnWay entries (placeFor (names ++ more)) := by
  have way := onWay_dest (plan.mem_of_listed listed inner)
  rwa [pathPlace_cleanText inner (plan.clean_listed listed)] at way

theorem storable_onWay {ns : List String} (way : OnWay entries (placeFor ns)) : Storable ns := by
  obtain ⟨entry, member, front⟩ := way
  obtain ⟨more, kind, listed, inner, rfl⟩ := (plan.mem_iff entry).1 member
  rw [pathPlace_cleanText inner (plan.clean_listed listed), placeFor_prefix_iff] at front
  exact fun name present => plan.storable listed inner name (front.subset present)

theorem start (nonempty : entries ≠ []) :
    OnWay entries (placeFor names) ∧ origin.kindAt (placeFor names) ≠ none := by
  obtain ⟨entry, member⟩ := List.exists_mem_of_ne_nil entries nonempty
  obtain ⟨more, kind, listed, inner, rfl⟩ := (plan.mem_iff entry).1 member
  have front : placeFor names <+: placeFor (names ++ more) :=
    placeFor_prefix_iff.2 (List.prefix_append names more)
  have there : origin.kindAt (placeFor (names ++ more)) ≠ none := by simp [listed.there]
  refine ⟨⟨_, member, ?_⟩, ?_⟩
  · rwa [pathPlace_cleanText inner (plan.clean_listed listed)]
  · rcases kindAt_front there front with whole | dir
    · rwa [whole]
    · simp [dir]

theorem root (nonempty : entries ≠ []) : origin.kindAt [rootName] = some .dir := by
  obtain ⟨entry, member⟩ := List.exists_mem_of_ne_nil entries nonempty
  obtain ⟨more, kind, listed, inner, rfl⟩ := (plan.mem_iff entry).1 member
  have there : origin.kindAt ([rootName] ++ (names ++ more).map bytesOf) = some kind := listed.there
  have inside : (names ++ more).map bytesOf ≠ [] := by simpa using inner
  exact Node.kindAt_above inside (by rw [← kindAt, there]; simp)

theorem fits (member : entry ∈ entries) (linkless : source.Linkless)
    (same : source.kindAt (pathPlace entry.dest) = origin.kindAt (pathPlace entry.dest)) :
    ∃ names, Fits source origin entry names := by
  obtain ⟨more, kind, listed, inner, rfl⟩ := (plan.mem_iff entry).1 member
  have clean := plan.clean_listed listed
  have storable := plan.storable listed inner
  rw [pathPlace_cleanText inner clean] at same
  refine ⟨names ++ more, rfl, inner, clean, storable, fun isDir => ?_, fun isFile => ?_⟩
  · rw [listed.there, eq_of_beq isDir]
  · cases kind with
    | dir => cases isFile
    | link => exact absurd listed.there (plan.linkless _)
    | file content =>
      exact ⟨content, statPath_of_file linkless clean storable inner (same.trans listed.there),
        listed.there⟩

theorem storable_part (fills : Fills origin (OnWay entries) emptyRoot part) {ns : List String}
    (there : part.kindAt (placeFor ns) ≠ none) : Storable ns := by
  by_cases way : OnWay entries (placeFor ns)
  · exact plan.storable_onWay way
  · rw [fills.others _ way, kindAt_emptyRoot] at there
    have top : ns = [] := by simpa [placeFor] using there
    simp [top, Storable]

theorem listed_part (fills : Fills origin (OnWay entries) emptyRoot part)
    (within : Within origin part) (inner : names ++ more ≠ []) :
    Listed part excludes names more kind ↔ Listed origin excludes names more kind := by
  constructor
  · intro listed
    have exists_ : part.kindAt (placeFor (names ++ more)) ≠ none := by simp [listed.there]
    have there := (within _).resolve_left exists_
    exact ⟨listed.clean, there.symm.trans listed.there, listed.passes⟩
  · intro listed
    have there := fills.filled _ (plan.onWay listed inner)
    exact ⟨listed.clean, there.trans listed.there, listed.passes⟩

theorem again (nonempty : entries ≠ []) (ordered : part.Ordered)
    (fills : Fills origin (OnWay entries) emptyRoot part) :
    ∃ again, PlainPlan part excludes names again ∧ ∀ entry, entry ∈ again ↔ entry ∈ entries := by
  have within : Within origin part := fills.within (emptyRoot_within (plan.root nonempty))
  have linkless := linkless_within within plan.linkless
  have spelled := spelled_within within plan.spelled
  have storable : ∀ ns : List String, part.kindAt (placeFor ns) ≠ none → Storable ns :=
    fun _ there => plan.storable_part fills there
  -- The source stands in the part as well, and the root is a directory there.
  obtain ⟨way, start⟩ := plan.start nonempty
  have same : part.kindAt (placeFor names) = origin.kindAt (placeFor names) := fills.filled _ way
  obtain ⟨kind, there⟩ := Option.ne_none_iff_exists'.1 start
  obtain ⟨node, here, isKind⟩ := kindAt_eq_some.1 (same.trans there)
  have isRoot : names = [] → node.isDir = true := by
    intro none
    rw [none] at there
    have root : origin.kindAt (placeFor []) = some .dir := plan.root nonempty
    rw [there, Option.some.injEq] at root
    rw [← kind_beq_dir, isKind, root]
    rfl
  obtain ⟨again, planned⟩ := @exists_planPlain part excludes names linkless spelled storable
    plan.clean node here isRoot
  have later : PlainPlan part excludes names again :=
    ⟨⟨ordered, linkless, spelled⟩, plan.clean, planned⟩
  refine ⟨again, later, fun entry => ?_⟩
  rw [later.mem_iff, plan.mem_iff]
  constructor
  · rintro ⟨more, kind, listed, inner, rfl⟩
    exact ⟨more, kind, (plan.listed_part fills within inner).1 listed, inner, rfl⟩
  · rintro ⟨more, kind, listed, inner, rfl⟩
    exact ⟨more, kind, (plan.listed_part fills within inner).2 listed, inner, rfl⟩

theorem arrived (nonempty : entries ≠ []) (fills : Fills origin (OnWay entries) emptyRoot part) :
    Brought origin entries part := by
  have within : Within origin part := fills.within (emptyRoot_within (plan.root nonempty))
  have linkless := linkless_within within plan.linkless
  refine ⟨fills, fun entry member isDir => ?_, fun entry member isFile => ?_⟩
  · obtain ⟨ns, fits⟩ := plan.fits member plan.linkless rfl
    have there := fills.filled _ (onWay_dest member)
    rw [fits.place, fits.dir isDir] at there
    rw [fits.dest]
    exact statPath_of_dir linkless fits.clean fits.storable there
  · obtain ⟨ns, fits⟩ := plan.fits member plan.linkless rfl
    obtain ⟨content, held, file⟩ := fits.file isFile
    have there := fills.filled _ (onWay_dest member)
    rw [fits.place, file] at there
    refine ⟨content, content, held, ?_, rfl⟩
    rw [fits.dest]
    exact statPath_of_file linkless fits.clean fits.storable fits.some there

end PlainPlan

theorem copyEntries_emptyRoot (fits : ∀ entry ∈ entries, ∃ names, Fits source origin entry names)
    (apart : (entries.map fun entry => pathPlace entry.dest).Nodup)
    (within : Within origin emptyRoot) :
    ∃ summary after, copyEntries source .zero emptyRoot entries = (.ok summary, after) ∧
      Fills origin (OnWay entries) emptyRoot after := by
  have root : emptyRoot.kindAt [rootName] = some .dir := rfl
  refine copyEntries_fills fits apart (fun entry member _ => ?_) within root
  obtain ⟨names, fit⟩ := fits entry member
  exact fit.missing

theorem run_of_plan {src : String} {opts : TransferOpts}
    (planned : plan source src opts = .ok entries) :
    run source target src opts = ((copyEntries source .zero target entries).1.mapError ioError,
      (copyEntries source .zero target entries).2) := by
  rw [run, planned]

theorem run_eq_of_plan {src : String} {opts : TransferOpts} {summary : TransferSummary}
    {after : Volume} (planned : plan source src opts = .ok entries)
    (copied : copyEntries source .zero target entries = (.ok summary, after)) :
    run source target src opts = (.ok summary, after) := by
  rw [run_of_plan planned, copied]
  rfl

end ControlPlane.Transfer
