import ControlPlane.Shell.Tool
-- Programs that copy, move and link entries of a directory, and the test of what they
-- are.
namespace ControlPlane.Shell

def entryAt? (p : Place) (path : String) : Option (List Name × Node) :=
  (entryPath? p path).bind fun at_ => (p.files.node? at_).map fun n => (at_, n)

def destination? (p : Place) (name : Name) (path : String) : Option (List Name) :=
  (p.steps? path).bind fun steps =>
    match p.files.spot steps with
    | .ok (.free dir new) => some (dir ++ [new])
    | .ok (.taken taken) => some (if p.files.isDirNode taken then taken ++ [name] else taken)
    | .error _ => none

def lastName (p : Place) (path : String) : Name :=
  (((p.steps? path).getD []).getLast?).getD Volume.rootName

def towards (p : Place) (act : Place → String → String → Done) (args : List String) : Done :=
  let paths := operands args
  eachPath p (fun p path => act p path (paths.getLast?.getD "")) paths.dropLast

def changed (files : Volume) : Done := ⟨[], "", 0, files⟩

def copy (p : Place) (args : List String) : Done :=
  towards p (fun p source target =>
    match p.node? source, destination? p (lastName p source) target with
    | none, _ => fails p (missing "cp" "cannot stat " ("'" ++ source ++ "'")) 1
    | some (.dir entries), some spot =>
      if hasFlag args 'r' || hasFlag args 'R' || hasFlag args 'a' then
        changed (p.files.put spot (.dir entries))
      else fails p ("cp: -r not specified; omitting directory '" ++ source ++ "'") 1
    | some n, some spot => changed (p.files.put spot n)
    | some _, none =>
      fails p (missing "cp" "cannot create regular file " ("'" ++ target ++ "'")) 1) args

def move (p : Place) (args : List String) : Done :=
  towards p (fun p source target =>
    match entryAt? p source, destination? p (lastName p source) target with
    | none, _ => fails p (missing "mv" "cannot stat " ("'" ++ source ++ "'")) 1
    | some (old, n), some spot => changed ((p.files.erase old).put spot n)
    | some _, none => fails p (missing "mv" ("cannot move '" ++ source ++ "' to ")
        ("'" ++ target ++ "'")) 1) args

def link (p : Place) (args : List String) : Done :=
  towards p (fun p source target =>
    match destination? p (lastName p source) target, p.node? source with
    | none, _ => fails p (missing "ln" "failed to create link " ("'" ++ target ++ "'")) 1
    | some spot, n =>
      if (p.files.node? spot).isSome && !hasFlag args 'f' then
        fails p ("ln: failed to create link '" ++ target ++ "': File exists") 1
      else if hasFlag args 's' then changed (p.files.put spot (.link (bytesOf source)))
      else
        match n with
        | some n => changed (p.files.put spot n)
        | none => fails p (missing "ln" "failed to access " ("'" ++ source ++ "'")) 1) args

def removeDir (p : Place) (args : List String) : Done :=
  eachPath p (fun p path =>
    match entryAt? p path with
    | some (at_, .dir []) => changed (p.files.erase at_)
    | some (_, .dir _) =>
      fails p ("rmdir: failed to remove '" ++ path ++ "': Directory not empty") 1
    | some _ => fails p ("rmdir: failed to remove '" ++ path ++ "': Not a directory") 1
    | none => fails p (missing "rmdir" "failed to remove " ("'" ++ path ++ "'")) 1)
    (operands args)

def isFile : Node → Bool
  | .file _ => true
  | _ => false

def isLink : Node → Bool
  | .link _ => true
  | _ => false

def holdsText : Node → Bool
  | .file content => !content.octets.isEmpty
  | n => n.isDir

def holdsOf (p : Place) (flag x : String) : Bool :=
  let node := p.node? x
  if flag = "-n" then x ≠ ""
  else if flag = "-z" then x = ""
  else if flag = "-f" then node.any isFile
  else if flag = "-s" then node.any holdsText
  else if flag = "-d" ∨ flag = "-x" then node.any Node.isDir
  else if flag = "-e" ∨ flag = "-r" ∨ flag = "-w" then node.isSome
  else if flag = "-L" ∨ flag = "-h" then (entryAt? p x).any fun e => isLink e.2
  else false

def holdsBetween (a sign b : String) : Bool :=
  let numbers := fun (f : Int → Int → Bool) =>
    match a.toInt?, b.toInt? with
    | some m, some n => f m n
    | _, _ => false
  match sign with
  | "=" => a = b
  | "!=" => a ≠ b
  | "-eq" => numbers fun m n => m = n
  | "-ne" => numbers fun m n => m ≠ n
  | "-lt" => numbers fun m n => m < n
  | "-le" => numbers fun m n => m ≤ n
  | "-gt" => numbers fun m n => n < m
  | "-ge" => numbers fun m n => n ≤ m
  | _ => false

def holds (p : Place) : List String → Bool
  | [] => false
  | [x] => x ≠ ""
  | [a, "=", b] => a = b
  | "!" :: rest => !holds p rest
  | [flag, x] => holdsOf p flag x
  | [a, sign, b] => holdsBetween a sign b
  | _ => false

def test (p : Place) (args : List String) : Done :=
  ⟨[], "", if holds p args then 0 else 1, p.files⟩

def tail (p : Place) (input : Source) (args : List String) : Done :=
  let final := fun (n : Nat) (s : Source) =>
    let ls := lines (octetsOf s)
    unlines (ls.drop (ls.length - n))
  match args with
  | "-c" :: n :: paths =>
    filtering p "tail" input paths fun s =>
      (octetsOf s).drop ((octetsOf s).length - n.toNat?.getD 0)
  | "-n" :: n :: paths => filtering p "tail" input paths (final (n.toNat?.getD 0))
  | paths => filtering p "tail" input paths (final 10)

def sequence (p : Place) (args : List String) : Done :=
  let shown := fun (low high : Nat) =>
    done p (unlines ((List.range (high + 1 - low)).map fun i => bytesOf (Nat.repr (low + i))))
  match args.map fun a => a.toNat?.getD 0 with
  | [high] => shown 1 high
  | [low, high] => shown low high
  | _ => fails p "seq: missing operand" 1

def tee (p : Place) (input : Source) (args : List String) : Done :=
  let data := octetsOf input
  let kept := eachPath p (fun p path =>
    match p.write? path data with
    | some files => changed files
    | none => fails p (missing "tee" "" path) 1) (operands args)
  { kept with out := data }

def entryTool? (name : String) : Option (Place → Source → List String → Done) :=
  match name with
  | "cp" => some fun p _ args => copy p args
  | "mv" => some fun p _ args => move p args
  | "ln" => some fun p _ args => link p args
  | "rmdir" => some fun p _ args => removeDir p args
  | "test" => some fun p _ args => test p args
  | "[" => some fun p _ args => test p args.dropLast
  | "tail" => some tail
  | "seq" => some fun p _ args => sequence p args
  | "tee" => some tee
  | _ => none

def program? (name : String) : Option (Place → Source → List String → Done) :=
  (tool? name).orElse fun _ => entryTool? name

end ControlPlane.Shell
