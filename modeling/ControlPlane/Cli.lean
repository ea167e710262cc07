import ControlPlane.Executor.Host
import ControlPlane.Http.Address
import ControlPlane.Text.Blank
-- The command line: a control plane for the time that a build command runs. The command
-- starts at the first argument that is no option, and what follows belongs to it.
namespace ControlPlane.Cli

structure Options where
  listen : Option String
  workDir : Option String
  backend : Option String
  buildId : Option String
  verbose : Bool
  command : List String
deriving DecidableEq

inductive Parsed where
  | run (options : Options)
  | help
  | version
  | misuse
deriving DecidableEq

inductive Key where
  | listen
  | workDir
  | backend
  | buildId
deriving DecidableEq

inductive Flag where
  | verbose
  | help
  | version
deriving DecidableEq

inductive Arg where
  | key (key : Key) (value : Option String)
  | flags (flags : List Flag) (value : Option String)
  | dashes
  | plain

def keyNamed? : String → Option Key
  | "listen" => some .listen
  | "work-dir" => some .workDir
  | "backend" => some .backend
  | "build-id" => some .buildId
  | _ => none

def flagNamed? : String → Option Flag
  | "verbose" => some .verbose
  | "help" => some .help
  | "version" => some .version
  | _ => none

def flagLetter? : Char → Option Flag
  | 'v' => some .verbose
  | 'h' => some .help
  | 'V' => some .version
  | _ => none

def splitLong (cs : List Char) : String × Option String :=
  (String.ofList (cs.takeWhile (· ≠ '=')),
    match cs.dropWhile (· ≠ '=') with
    | [] => none
    | _ :: value => some (String.ofList value))

def Arg.ofText (text : String) : Arg :=
  match text.toList with
  | ['-', '-'] => .dashes
  | '-' :: '-' :: long =>
    let (name, value) := splitLong long
    match keyNamed? name, flagNamed? name with
    | some k, _ => .key k value
    | none, some flag => .flags [flag] value
    | none, none => .plain
  | '-' :: c :: letters =>
    match (c :: letters).mapM flagLetter? with
    | some letters => .flags letters none
    | none => .plain
  | _ => .plain

def noOptions : Options := ⟨none, none, none, none, false, []⟩

def setKey (o : Options) (value : String) : Key → Option Options
  | .listen => if o.listen.isSome then none else some { o with listen := some value }
  | .workDir =>
    if o.workDir.isSome ∨ value = "" then none else some { o with workDir := some value }
  | .backend => if o.backend.isSome then none else some { o with backend := some value }
  | .buildId => if o.buildId.isSome then none else some { o with buildId := some value }

def setFlags (o : Options) : List Flag → Parsed ⊕ Options
  | [] => .inr o
  | .help :: _ => .inl .help
  | .version :: _ => .inl .version
  | .verbose :: rest => if o.verbose then .inl .misuse else setFlags { o with verbose := true } rest

-- Reads arguments. `pending` is an option that still lacks its value.
def readArgs (o : Options) (pending : Option Key) : List String → Parsed
  | [] => if pending.isSome then .misuse else .run o
  | arg :: rest =>
    match pending, Arg.ofText arg with
    | some key, .plain =>
      match setKey o arg key with
      | some o => readArgs o none rest
      | none => .misuse
    | some _, _ => .misuse
    | none, .key key none => readArgs o (some key) rest
    | none, .key key (some value) =>
      match setKey o value key with
      | some o => readArgs o none rest
      | none => .misuse
    | none, .flags _ (some _) => .misuse
    | none, .flags flags none =>
      match setFlags o flags with
      | .inl ended => ended
      | .inr o => readArgs o none rest
    | none, .dashes => .run { o with command := rest }
    | none, .plain => .run { o with command := arg :: rest }

def parse (args : List String) : Parsed := readArgs noOptions none args

def helpText : String :=
  "Run a build command against a local Knita control plane\n\n"
    ++ "Usage: knita [OPTIONS] [COMMAND]...\n\n"
    ++ "Arguments:\n"
    ++ "  [COMMAND]...  Build command and its arguments. Without one, serve until interrupted\n\n"
    ++ "Options:\n"
    ++ "      --listen <LISTEN>      Address the control plane listens on [default: 127.0.0.1:0]\n"
    ++ "      --work-dir <WORK_DIR>  Directory runtimes import from and export to "
    ++ "(defaults to the current directory)\n"
    ++ "      --backend <BACKEND>    Executor backend: host or mock [default: host]\n"
    ++ "      --build-id <BUILD_ID>  Build id to serve instead of a freshly generated one\n"
    ++ "  -v, --verbose              Enable verbose (debug) logging output\n"
    ++ "  -h, --help                 Print help\n"
    ++ "  -V, --version              Print version\n"

def versionText : String := "knita 0.1.0\n"

-- Where the command line is used: how programs are started in a directory of the files
-- there, the text of their root, a build id that is not taken, and the socket to be given.
structure Setting where
  start : String → Program → Volume → Except String (Finished × Volume)
  home : String
  freshBuildId : String
  socket : String

structure Result where
  code : Nat
  stdout : Bytes

def stdoutOf (output : List (Channel × Bytes)) : Bytes :=
  (output.filter (·.1 = .stdout)).flatMap (·.2)

-- An exit code outside of an octet counts as a failure, as does every other end.
def exitCode : Except String ExitStatus → Nat
  | .ok (.exited code) => if code < 256 then code else 1
  | _ => 1

def runCommand (s : Setting) (o : Options) (files : Volume) : List String → Result
  | [] => ⟨0, []⟩
  | name :: args =>
    let env := [("KNITA_BUILD_ID", o.buildId.getD s.freshBuildId), ("KNITA_SOCKET", s.socket)]
    match s.start (o.workDir.getD "") ⟨name, args, env, s.home⟩ files with
    | .error _ => ⟨1, []⟩
    | .ok (finished, _) => ⟨exitCode finished.status, stdoutOf finished.output⟩

def runOptions (s : Setting) (o : Options) (files : Volume) : Result :=
  match BackendKind.select (o.backend.getD "host"), bindAddress (o.listen.getD "127.0.0.1:0") with
  | .ok _, .ok _ => runCommand s o files o.command
  | _, _ => ⟨1, []⟩

def run (s : Setting) (args : List String) (files : Volume) : Result :=
  match parse args with
  | .misuse => ⟨2, []⟩
  | .help => ⟨0, bytesOf helpText⟩
  | .version => ⟨0, bytesOf versionText⟩
  | .run o => runOptions s o files

end ControlPlane.Cli
