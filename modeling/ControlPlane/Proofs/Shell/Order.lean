import ControlPlane.Proofs.Volume.Order
import ControlPlane.Shell.Machine
-- Whatever a program or a script does to the files of a machine, they stay in order.
namespace ControlPlane.Shell

variable {p : Place} {n : Node} {v : Volume} {path name : String} {input : Source}
  {args paths : List String}

theorem Place.write?_ordered {content : Bytes} (ordered : p.files.Ordered)
    (wrote : p.write? path content = some v) : v.Ordered := by
  unfold write? at wrote
  split at wrote
  · cases wrote
    exact ordered
  · obtain ⟨steps, _, written⟩ := Option.bind_eq_some_iff.1 wrote
    split at written
    · rename_i after edited
      cases written
      exact ordered.writeFile edited
    · cases written

theorem Place.node?_ordered (ordered : p.files.Ordered) (found : p.node? path = some n) :
    n.isOrdered = true := by
  obtain ⟨steps, _, here⟩ := Option.bind_eq_some_iff.1 found
  split at here
  · rename_i stat
    cases here
    exact ordered.stat stat
  · cases here

theorem entryAt?_ordered {place : List Name} (ordered : p.files.Ordered)
    (found : entryAt? p path = some (place, n)) : n.isOrdered = true := by
  obtain ⟨_, _, here⟩ := Option.bind_eq_some_iff.1 found
  obtain ⟨_, held, same⟩ := Option.map_eq_some_iff.1 here
  cases same
  exact Node.ordered_get? ordered held

@[simp]
theorem done_files (p : Place) (out : Bytes) : (done p out).files = p.files := rfl

@[simp]
theorem fails_files (p : Place) (err : String) (code : Nat) : (fails p err code).files = p.files :=
  rfl

@[simp]
theorem filtering_files (p : Place) (tool : String) (input : Source) (paths : List String)
    (f : Source → Bytes) : (filtering p tool input paths f).files = p.files := by
  unfold filtering
  split <;> rfl

theorem eachPath_ordered {act : Place → String → Done}
    (keeps : ∀ p path, p.files.Ordered → (act p path).files.Ordered) (ordered : p.files.Ordered) :
    (eachPath p act paths).files.Ordered := by
  induction paths generalizing p with
  | nil => exact ordered
  | cons path rest ih =>
    unfold eachPath
    dsimp only
    split
    · exact ih (keeps p path ordered)
    · exact keeps p path ordered

theorem mkdir_ordered (ordered : p.files.Ordered) : (mkdir p args).files.Ordered := by
  refine eachPath_ordered (fun p path ordered => ?_) ordered
  split
  · exact ordered
  rename_i steps _
  split
  · have made := ordered.makeDirs steps
    split
    · rename_i ran
      rwa [ran] at made
    · rename_i ran
      rwa [ran] at made
  · split
    · exact ordered
    · split
      · rename_i made
        exact ordered.makeDir made
      · exact ordered

theorem rm_ordered (ordered : p.files.Ordered) : (rm p args).files.Ordered := by
  refine eachPath_ordered (fun p path ordered => ?_) ordered
  split
  · split <;> exact ordered
  · split
    · exact ordered
    · exact ordered.erase _

theorem touch_ordered (ordered : p.files.Ordered) : (touch p args).files.Ordered := by
  refine eachPath_ordered (fun p path ordered => ?_) ordered
  split
  · exact ordered
  · split
    · rename_i wrote
      exact Place.write?_ordered ordered wrote
    · exact ordered

theorem tool?_ordered {tool : Place → Source → List String → Done} (found : tool? name = some tool)
    (ordered : p.files.Ordered) : (tool p input args).files.Ordered := by
  unfold tool? at found
  split at found
  all_goals cases found
  · exact ordered
  · exact ordered
  · exact ordered
  · unfold echo
    dsimp only
    split <;> exact ordered
  · unfold printf
    dsimp only
    split <;> exact ordered
  · exact ordered
  · simpa using ordered
  · unfold head
    split <;> simpa using ordered
  · unfold tr
    split <;> exact ordered
  · simpa [sort] using ordered
  · unfold wc
    dsimp only
    split <;> exact ordered
  · unfold cut
    split <;> simpa using ordered
  · unfold ls
    dsimp only
    split <;> exact ordered
  · unfold find
    dsimp only
    split <;> exact ordered
  · exact mkdir_ordered ordered
  · exact rm_ordered ordered
  · exact touch_ordered ordered

theorem towards_ordered {act : Place → String → String → Done}
    (keeps : ∀ p source target, p.files.Ordered → (act p source target).files.Ordered)
    (ordered : p.files.Ordered) : (towards p act args).files.Ordered :=
  eachPath_ordered (fun p path => keeps p path _) ordered

theorem copy_ordered (ordered : p.files.Ordered) : (copy p args).files.Ordered := by
  refine towards_ordered (fun p source target ordered => ?_) ordered
  have inner : ∀ n, p.node? source = some n → n.isOrdered = true :=
    fun _ => Place.node?_ordered ordered
  split
  · exact ordered
  · split
    · exact ordered.put (inner _ ‹_›) _
    · exact ordered
  · exact ordered.put (inner _ ‹_›) _
  · exact ordered

theorem move_ordered (ordered : p.files.Ordered) : (move p args).files.Ordered := by
  refine towards_ordered (fun p source target ordered => ?_) ordered
  split
  · exact ordered
  · exact (ordered.erase _).put (entryAt?_ordered ordered ‹_›) _
  · exact ordered

theorem link_ordered (ordered : p.files.Ordered) : (link p args).files.Ordered := by
  refine towards_ordered (fun p source target ordered => ?_) ordered
  have inner : ∀ n, p.node? source = some n → n.isOrdered = true :=
    fun _ => Place.node?_ordered ordered
  split
  · exact ordered
  split
  · exact ordered
  split
  · exact ordered.put rfl _
  split
  · exact ordered.put (inner _ ‹_›) _
  · exact ordered

theorem removeDir_ordered (ordered : p.files.Ordered) : (removeDir p args).files.Ordered := by
  refine eachPath_ordered (fun p path ordered => ?_) ordered
  split
  · exact ordered.erase _
  all_goals exact ordered

theorem tee_ordered (ordered : p.files.Ordered) : (tee p input args).files.Ordered := by
  refine eachPath_ordered (fun p path ordered => ?_) ordered
  split
  · rename_i wrote
    exact Place.write?_ordered ordered wrote
  · exact ordered

theorem entryTool?_ordered {tool : Place → Source → List String → Done}
    (found : entryTool? name = some tool) (ordered : p.files.Ordered) :
    (tool p input args).files.Ordered := by
  unfold entryTool? at found
  split at found
  all_goals cases found
  · exact copy_ordered ordered
  · exact move_ordered ordered
  · exact link_ordered ordered
  · exact removeDir_ordered ordered
  · exact ordered
  · exact ordered
  · unfold tail
    dsimp only
    split <;> simpa using ordered
  · unfold sequence
    dsimp only
    split <;> exact ordered
  · exact tee_ordered ordered

theorem program?_ordered {tool : Place → Source → List String → Done}
    (found : program? name = some tool) (ordered : p.files.Ordered) :
    (tool p input args).files.Ordered := by
  unfold program? at found
  cases first : tool? name with
  | some other =>
    rw [first] at found
    cases found
    exact tool?_ordered first ordered
  | none =>
    rw [first] at found
    exact entryTool?_ordered found ordered

def State.Ordered (s : State) : Prop := s.place.files.Ordered

variable {s : State} {w : Wiring}

theorem emit_ordered (ordered : s.Ordered) (target : Target) (data : Bytes) :
    (s.emit target data).Ordered := by
  unfold State.emit
  split
  · exact ordered
  split
  · exact ordered
  split
  · split
    · exact Place.write?_ordered ordered ‹_›
    · exact ordered
  · exact ordered

theorem complain_ordered (ordered : s.Ordered) (message : String) (status : Nat) :
    (s.complain message status).Ordered := emit_ordered ordered _ _

theorem emits_ordered (ordered : s.Ordered) (output : List (Channel × Bytes)) (w : Wiring) :
    (output.foldl (fun s o => s.emit (w.get o.1) o.2) s).Ordered := by
  induction output generalizing s with
  | nil => exact ordered
  | cons o rest ih => exact ih (emit_ordered ordered _ _)

theorem openOutput_ordered {after : State} {appends : Bool} (ordered : s.Ordered)
    (opened : openOutput s path appends = some after) : after.Ordered := by
  unfold openOutput at opened
  split at opened
  · cases opened
    exact ordered
  · obtain ⟨files, wrote, rfl⟩ := Option.map_eq_some_iff.1 opened
    exact Place.write?_ordered ordered wrote

def redirected : Except State (State × Wiring) → State
  | .ok (s, _) => s
  | .error s => s

theorem redirect_ordered (ordered : s.Ordered) (redirects : List Redirect) :
    (redirected (redirect s w redirects)).Ordered := by
  induction redirects generalizing s w with
  | nil => exact ordered
  | cons r rest ih =>
    cases r with
    | input file =>
      unfold redirect
      dsimp only
      split
      · exact ih ordered
      · exact complain_ordered ordered _ _
    | output channel appends file =>
      unfold redirect
      dsimp only
      split
      · exact ih (openOutput_ordered ordered ‹_›)
      · exact complain_ordered ordered _ _
    | join channel target => exact ih ordered

theorem sendSignal_ordered (ordered : s.Ordered) (signal : Nat) (pid : String) :
    (sendSignal s signal pid).Ordered := by
  unfold sendSignal
  split
  · exact complain_ordered ordered _ _
  · split <;> exact ordered

theorem changeDirectory_ordered (ordered : s.Ordered) (path : String) :
    (changeDirectory s path).Ordered := by
  unfold changeDirectory
  split
  · split
    · exact ordered
    · exact complain_ordered ordered _ _
  · exact complain_ordered ordered _ _

theorem applySettings_ordered (ordered : s.Ordered) (settings : List (String × Word)) :
    (applySettings s settings).Ordered := by
  unfold applySettings
  induction settings generalizing s with
  | nil => exact ordered
  | cons setting rest ih => exact ih ordered

theorem setArguments_ordered (ordered : s.Ordered) (args : List String) :
    (s.setArguments args).Ordered := ordered

theorem runTool_ordered {tool : Place → Source → List String → Done}
    (keeps : ∀ input args, (tool s.place input args).files.Ordered) (args : List String) :
    (runTool s w tool args).Ordered := by
  have ran : State.Ordered { s with
      place := { s.place with files := (tool s.place w.input args).files }
      status := (tool s.place w.input args).code } := keeps w.input args
  exact emit_ordered (emit_ordered ran _ _) _ _

section

-- What holds of shells that are started from a script.
variable {nested : State → Source → List String → State}
  (keeps : ∀ s input args, s.Ordered → (nested s input args).Ordered)

include keeps

theorem runCommand_ordered (ordered : s.Ordered) (words : List String) :
    (runCommand nested s w words).Ordered := by
  unfold runCommand
  split
  · exact ordered
  · exact ordered
  · exact ordered
  · exact changeDirectory_ordered ordered _
  · refine runTool_ordered (fun _ _ => ?_) _
    exact ordered
  · exact sendSignal_ordered ordered _ _
  · exact sendSignal_ordered ordered _ _
  · exact sendSignal_ordered ordered _ _
  · refine runTool_ordered (fun _ args => ?_) _
    unfold echoEscaped
    dsimp only
    split <;> exact ordered
  · rename_i args
    have inner := keeps { s with output := [], ended := none } w.input args ordered
    have after : State.Ordered { s with place := { (nested { s with output := [], ended := none }
        w.input args).place with here := s.place.here } } := inner
    exact emits_ordered after _ w
  · split
    · exact runTool_ordered (fun _ _ => program?_ordered ‹_› ordered) _
    · exact emit_ordered ordered _ _

theorem fill_ordered (ordered : s.Ordered) (word : Word) : (fill nested s word).1.Ordered := by
  induction word generalizing s with
  | nil => exact ordered
  | cons piece rest ih =>
    cases piece with
    | output script isQuoted =>
      have inner := keeps { s with output := [], ended := none } (.octets []) ["-c", script] ordered
      exact ih inner
    | _ => exact ih ordered

theorem fillAll_ordered (ordered : s.Ordered) (words : List Word) :
    (fillAll nested s words).1.Ordered := by
  induction words generalizing s with
  | nil => exact ordered
  | cons word rest ih => exact ih (fill_ordered keeps ordered word)

theorem runSimple_ordered (ordered : s.Ordered) (c : Simple) :
    (runSimple nested s w c).Ordered := by
  have filled := fillAll_ordered keeps (fillAll_ordered keeps ordered c.words)
    (c.settings.map (·.2))
  have opened := redirect_ordered filled c.redirects (w := w)
  unfold runSimple
  dsimp only
  split
  · rename_i failed
    rwa [failed] at opened
  · rename_i done
    rw [done] at opened
    exact runCommand_ordered keeps (applySettings_ordered opened _) _

theorem runPipeline_ordered (ordered : s.Ordered) (input : Source) (commands : List Simple) :
    (runPipeline nested s input commands).Ordered := by
  fun_induction runPipeline nested s input commands with
  | case1 => exact ordered
  | case2 => exact runSimple_ordered keeps ordered _
  | case3 s input c rest _ ran piped next last ih =>
    have start : State.Ordered { s with output := [] } := ordered
    have after : ran.Ordered := runSimple_ordered keeps start c
    exact ih after

theorem runScript_ordered (ordered : s.Ordered) (script : Script) :
    (runScript nested input script s).Ordered := by
  induction script generalizing s with
  | nil => exact ordered
  | cons command rest ih =>
    unfold runScript
    split
    · exact ordered
    split
    · exact ih ordered
    split
    · exact ih ordered
    · exact ih (runPipeline_ordered keeps ordered input command.2)

end

theorem runShell_ordered (depth : Nat) (ordered : s.Ordered) (input : Source)
    (args : List String) : (runShell depth s input args).Ordered := by
  induction depth generalizing s input args with
  | zero => exact complain_ordered ordered _ _
  | succ depth ih =>
    have inner : ∀ s input args, State.Ordered s → (runShell depth s input args).Ordered :=
      fun s input args ordered => ih ordered input args
    revert ordered
    unfold runShell
    split
    · exact fun ordered => complain_ordered ordered _ _
    · rename_i same
      cases same
      exact fun ordered => runScript_ordered inner (setArguments_ordered ordered _) _
    · exact id
    · exact fun ordered => complain_ordered ordered _ _

-- Files that are in order are still in order after any program, the shell with any script
-- among them.
theorem runAt_ordered {here : List Name} {program : Program} {files after : Volume}
    {finished : Finished} (ordered : files.Ordered)
    (ran : runAt here program files = .ok (finished, after)) : after.Ordered := by
  unfold runAt at ran
  dsimp only at ran
  split at ran
  · cases ran
  split at ran
  · cases ran
  split at ran
  · cases ran
    have start : State.Ordered ⟨⟨files, program.home, here⟩, program.env.reverse ++
        [("PWD", Place.path ⟨files, program.home, here⟩)], 0, [], none⟩ := ordered
    exact runShell_ordered depth start _ _
  · split at ran
    · cases ran
    · rename_i tool known
      cases ran
      unfold programOf? at known
      split at known
      · cases known
        exact ordered
      · exact program?_ordered known ordered

end ControlPlane.Shell
