import ControlPlane.Shell.Entries
-- Running scripts and programs. The commands of a pipeline run one after the other, each
-- on what the one before wrote.
namespace ControlPlane.Shell

structure State where
  place : Place
  bindings : List (String × String)
  status : Nat
  output : List (Channel × Bytes)
  ended : Option ExitStatus

inductive Target where
  | channel (c : Channel)
  | file (path : String)
deriving DecidableEq

namespace State

def value (s : State) (name : String) : String := (s.bindings.lookup name).getD ""

def setVariable (s : State) (name value : String) : State :=
  { s with bindings := (name, value) :: s.bindings }

def setArguments (s : State) (args : List String) : State :=
  let numbered := (if args.isEmpty then ["sh"] else args).zipIdx.map fun e => (Nat.repr e.2, e.1)
  { s with bindings := ("#", Nat.repr (args.length - 1)) :: numbered ++ s.bindings }

def ownPid : String := "4321"

def expandPiece (s : State) : Piece → List Char × Bool
  | .text cs => (cs, true)
  | .loose cs => (cs, false)
  | .output .. => ([], true)
  | .value name isQuoted => ((s.value name).toList, isQuoted)
  | .size name => (Nat.repr (s.value name).length |>.toList, true)
  | .pid => (ownPid.toList, true)
  | .status => (Nat.repr s.status |>.toList, true)

def isSplit (c : Char) : Bool := c == ' ' || c == '\t' || c == '\n'

-- Adds a value that is not quoted to the fields so far, the last of which is still open:
-- each run of blanks in it ends a field.
def splitInto (fields : List (Option (List Char))) : List Char → List (Option (List Char))
  | [] => fields
  | c :: rest =>
    if isSplit c then
      splitInto (if fields.getLast? = some none then fields else fields ++ [none]) rest
    else
      splitInto (fields.dropLast ++ [some ((fields.getLast?.getD none).getD [] ++ [c])]) rest

def addKept (fields : List (Option (List Char))) (cs : List Char) : List (Option (List Char)) :=
  fields.dropLast ++ [some ((fields.getLast?.getD none).getD [] ++ cs)]

def expand (s : State) (w : Word) : List String :=
  (w.foldl (fun fields p =>
      match s.expandPiece p with
      | (cs, true) => addKept fields cs
      | (cs, false) => splitInto fields cs) [none]).filterMap (·.map String.ofList)

def expandOne (s : State) (w : Word) : String :=
  String.ofList (w.flatMap fun p => (s.expandPiece p).1)

def emit (s : State) (target : Target) (data : Bytes) : State :=
  if data.isEmpty then s
  else
    match target with
    | .channel c => { s with output := s.output ++ [(c, data)] }
    | .file path =>
      match s.place.read? path with
      | some (.octets old) =>
        match s.place.write? path (old ++ data) with
        | some v => { s with place := { s.place with files := v } }
        | none => s
      | _ => s

def complain (s : State) (message : String) (status : Nat) : State :=
  { s.emit (.channel .stderr) (bytesOf ("sh: 1: " ++ message ++ "\n")) with status := status }

end State

structure Wiring where
  input : Source
  out : Target
  err : Target

def Wiring.get (w : Wiring) : Channel → Target
  | .stdout => w.out
  | .stderr => w.err

def Wiring.set (w : Wiring) (t : Target) : Channel → Wiring
  | .stdout => { w with out := t }
  | .stderr => { w with err := t }

def openOutput (s : State) (path : String) (appends : Bool) : Option State :=
  if appends && (s.place.read? path).isSome then some s
  else (s.place.write? path []).map fun v => { s with place := { s.place with files := v } }

def redirect (s : State) (w : Wiring) : List Redirect → Except State (State × Wiring)
  | [] => .ok (s, w)
  | .input file :: rest =>
    let path := s.expandOne file
    match s.place.read? path with
    | some source => redirect s { w with input := source } rest
    | none => .error (s.complain ("cannot open " ++ path ++ ": No such file") 2)
  | .output channel appends file :: rest =>
    let path := s.expandOne file
    match openOutput s path appends with
    | some s => redirect s (w.set (.file path) channel) rest
    | none => .error (s.complain ("cannot create " ++ path ++ ": Directory nonexistent") 2)
  | .join channel target :: rest => redirect s (w.set (w.get target) channel) rest

def signalNames : List (String × Nat) :=
  [("HUP", 1), ("INT", 2), ("QUIT", 3), ("ABRT", 6), ("KILL", 9), ("USR1", 10), ("SEGV", 11),
    ("USR2", 12), ("PIPE", 13), ("ALRM", 14), ("TERM", 15)]

def signalOf (arg : String) : Nat :=
  let name := String.ofList (arg.toList.drop 1)
  match name.toNat? with
  | some n => n
  | none => (signalNames.lookup name).getD 15

def isHarmless (signal : Nat) : Bool := [0, 17, 18, 23, 28].contains signal

def sendSignal (s : State) (signal : Nat) (pid : String) : State :=
  if pid ≠ State.ownPid then s.complain "kill: No such process" 1
  else if isHarmless signal then { s with status := 0 }
  else { s with status := 128 + signal, ended := some (.signalled signal) }

def exitCode (s : State) : List String → Nat
  | [] => s.status
  | arg :: _ => (arg.toNat?.getD 2) % 256

def changeDirectory (s : State) (path : String) : State :=
  match s.place.steps? path with
  | some steps =>
    if s.place.files.isDirAt steps then
      let place := { s.place with here := steps.filter (· ≠ dot) }
      { s with place := place, status := 0 }.setVariable "PWD" place.path
    else s.complain ("cd: can't cd to " ++ path) 2
  | none => s.complain ("cd: can't cd to " ++ path) 2

def applySettings (s : State) (settings : List (String × Word)) : State :=
  settings.foldl (fun s e => s.setVariable e.1 (s.expandOne e.2)) s

def runTool (s : State) (w : Wiring) (tool : Place → Source → List String → Done)
    (args : List String) : State :=
  let d := tool s.place w.input args
  let s := { s with place := { s.place with files := d.files }, status := d.code }
  (s.emit w.out d.out).emit w.err (bytesOf d.err)

def printenv (bindings : List (String × String)) (p : Place) (names : List String) : Done :=
  let values := names.filterMap fun n => bindings.lookup n
  ⟨unlines (values.map bytesOf), "", if values.length = names.length then 0 else 1, p.files⟩

def runCommand (nested : State → Source → List String → State) (s : State) (w : Wiring) :
    List String → State
  | [] => { s with status := 0 }
  | ":" :: _ => { s with status := 0 }
  | "exit" :: args => { s with status := exitCode s args, ended := some (.exited (exitCode s args)) }
  | "cd" :: args => changeDirectory s (args.headD s.place.root)
  | "printenv" :: names => runTool s w (fun p _ => printenv s.bindings p) names
  | ["kill", "-s", signal, pid] => sendSignal s (signalOf ("-" ++ signal)) pid
  | ["kill", signal, pid] => sendSignal s (signalOf signal) pid
  | ["kill", pid] => sendSignal s 15 pid
  | "echo" :: args => runTool s w (fun p _ => echoEscaped p) args
  | "sh" :: args =>
    let inner := nested { s with output := [], ended := none } w.input args
    let after := { s with place := { inner.place with here := s.place.here } }
    let after := inner.output.foldl (fun s o => s.emit (w.get o.1) o.2) after
    { after with
      status := match inner.ended with
        | some (.exited n) => n
        | some (.signalled n) => 128 + n
        | some .other => 255
        | none => inner.status }
  | name :: args =>
    match program? name with
    | some tool => runTool s w tool args
    | none => { s.emit w.err (bytesOf ("sh: 1: " ++ name ++ ": not found\n")) with status := 127 }

def withoutNewlines (b : Bytes) : Bytes := (b.reverse.dropWhile (· == 10)).reverse

def fill (nested : State → Source → List String → State) (s : State) : Word → State × Word
  | [] => (s, [])
  | .output script isQuoted :: rest =>
    let inner := nested { s with output := [], ended := none } (.octets []) ["-c", script]
    let written := (inner.output.filter (·.1 = .stdout)).flatMap (·.2)
    let cs := (lossyTextOf (withoutNewlines written)).toList
    let s :=
      { s with
        place := { s.place with files := inner.place.files }
        output := s.output ++ inner.output.filter (·.1 = .stderr)
        status := inner.status }
    let (s, rest) := fill nested s rest
    (s, (if isQuoted then .text cs else .loose cs) :: rest)
  | p :: rest =>
    let (s, rest) := fill nested s rest
    (s, p :: rest)

def fillAll (nested : State → Source → List String → State) (s : State) :
    List Word → State × List Word
  | [] => (s, [])
  | w :: rest =>
    let (s, w) := fill nested s w
    let (s, rest) := fillAll nested s rest
    (s, w :: rest)

def runSimple (nested : State → Source → List String → State) (s : State) (w : Wiring)
    (c : Simple) : State :=
  let (s, words) := fillAll nested s c.words
  let (s, values) := fillAll nested s (c.settings.map (·.2))
  match redirect s w c.redirects with
  | .error s => s
  | .ok (s, w) =>
    let s := applySettings s ((c.settings.map (·.1)).zip values)
    runCommand nested s w (words.flatMap s.expand)

-- The commands of a pipeline with more than one run apart from the shell, which keeps only
-- what they did to files.
def runPipeline (nested : State → Source → List String → State) (s : State) (input : Source) :
    List Simple → State
  | [] => s
  | [c] => runSimple nested s ⟨input, .channel .stdout, .channel .stderr⟩ c
  | c :: rest =>
    let ran := runSimple nested { s with output := [] }
      ⟨input, .channel .stdout, .channel .stderr⟩ c
    let piped := (ran.output.filter (·.1 = .stdout)).flatMap (·.2)
    let s :=
      { s with
        place := { s.place with files := ran.place.files }
        output := s.output ++ ran.output.filter (·.1 = .stderr) }
    let last := runPipeline nested s (.octets piped) rest
    { last with ended := s.ended, bindings := s.bindings }

def runScript (nested : State → Source → List String → State) (input : Source) :
    Script → State → State
  | [], s => s
  | (connector, pipeline) :: rest, s =>
    if s.ended.isSome then s
    else if connector = .ifOk ∧ s.status ≠ 0 then runScript nested input rest s
    else if connector = .ifFailed ∧ s.status = 0 then runScript nested input rest s
    else runScript nested input rest (runPipeline nested s input pipeline)

def runShell : Nat → State → Source → List String → State
  | 0, s, _, _ => s.complain "cannot fork" 2
  | depth + 1, s, input, "-c" :: script :: args =>
    runScript (runShell depth) input (Script.read script) (s.setArguments args)
  | _, s, _, [] => { s with status := 0 }
  | _, s, _, path :: _ => s.complain ("cannot open " ++ path ++ ": No such file") 2

def depth : Nat := 16

def holdsNul (p : Program) : Bool :=
  (p.name :: p.args ++ p.env.flatMap fun e => [e.1, e.2]).any fun t => t.toList.contains '\x00'

def programOf? (p : Program) : Option (Place → Source → List String → Done) :=
  if p.name = "printenv" then some fun place _ => printenv p.env.reverse place
  else program? p.name

def runAt (here : List Name) (p : Program) (files : Volume) :
    Except String (Finished × Volume) :=
  let place : Place := ⟨files, p.home, here⟩
  if holdsNul p then .error "nul byte found in provided data"
  else if !files.isDirAt here then .error "No such file or directory (os error 2)"
  else if p.name = "sh" then
    let start : State := ⟨place, (p.env.reverse ++ [("PWD", place.path)]), 0, [], none⟩
    let s := runShell depth start (.octets []) p.args
    .ok (⟨s.output, .ok (s.ended.getD (.exited s.status))⟩, s.place.files)
  else
    match programOf? p with
    | none => .error "No such file or directory (os error 2)"
    | some tool =>
      let d := tool place (.octets []) p.args
      .ok (⟨[(.stdout, d.out), (.stderr, bytesOf d.err)], .ok (.exited d.code)⟩, d.files)

def runIn (directory : String) (p : Program) (files : Volume) :
    Except String (Finished × Volume) :=
  runAt ((stepsOf (bytesOf directory)).filter (· ≠ dot)) p files

def machine (info : SystemInfo) : Machine := ⟨info, runAt []⟩

end ControlPlane.Shell
