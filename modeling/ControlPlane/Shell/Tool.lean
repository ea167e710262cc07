import ControlPlane.Shell.Script
import ControlPlane.Volume.Edit
-- The programs that a machine knows: what they write, their exit code, and what they do
-- to the files of a directory.
namespace ControlPlane.Shell

-- Where a program runs: the files, the text of their root, and the steps from there.
structure Place where
  files : Volume
  root : String
  here : List Name

inductive Source where
  | octets (bytes : Bytes)
  | zeros

structure Done where
  out : Bytes
  err : String
  code : Nat
  files : Volume

namespace Place

def path (p : Place) : String :=
  "/".intercalate (p.root :: p.here.map lossyTextOf)

-- The steps of a path. A path from the top has to lead through the root.
def steps? (p : Place) (path : String) : Option (List Name) :=
  let cs := path.toList
  if cs.head? = some '/' ∨ p.root.toList.isPrefixOf cs then
    if p.root.toList.isPrefixOf cs then some (stepsOf (Utf8.encode (cs.drop p.root.length)))
    else none
  else if cs.isEmpty then none
  else some (p.here ++ stepsOf (bytesOf path))

def node? (p : Place) (path : String) : Option Node :=
  (p.steps? path).bind fun steps =>
    match p.files.stat steps with
    | .ok n => some n
    | .error _ => none

def read? (p : Place) (path : String) : Option Source :=
  if path = "/dev/zero" then some .zeros
  else if path = "/dev/null" then some (.octets [])
  else
    match p.node? path with
    | some (.file content) => some (.octets content.octets)
    | _ => none

def write? (p : Place) (path : String) (content : Bytes) : Option Volume :=
  if path = "/dev/null" then some p.files
  else
    (p.steps? path).bind fun steps =>
      match p.files.writeFile steps ⟨content, false⟩ with
      | .ok v => some v
      | .error _ => none

end Place

def done (p : Place) (out : Bytes) : Done := ⟨out, "", 0, p.files⟩

def fails (p : Place) (err : String) (code : Nat) : Done := ⟨[], err ++ "\n", code, p.files⟩

def missing (tool doing path : String) : String :=
  tool ++ ": " ++ doing ++ path ++ ": No such file or directory"

def lines (b : Bytes) : List Bytes :=
  let parts := b.splitOn 10
  if parts.getLast? = some [] then parts.dropLast else parts

def unlines (ls : List Bytes) : Bytes := ls.flatMap (· ++ [10])

def number (base digits : Nat) (cs : List Char) : Nat × List Char :=
  let ds := (cs.take digits).takeWhile fun c => '0' ≤ c && c.toNat < '0'.toNat + base
  (ds.foldl (fun n c => n * base + (c.toNat - '0'.toNat)) 0, cs.drop ds.length)

def isDigit (c : Char) : Bool := '0' ≤ c && c ≤ '9'

def letterEscape? : Char → Option UInt8
  | 'a' => some 7
  | 'b' => some 8
  | 'f' => some 12
  | 'n' => some 10
  | 'r' => some 13
  | 't' => some 9
  | 'v' => some 11
  | '\\' => some 92
  | _ => none

def unescape (cs : List Char) : Bytes × List Char :=
  match cs with
  | [] => ([92], [])
  | c :: rest =>
    match letterEscape? c with
    | some b => ([b], rest)
    | none =>
      let (n, after) := number 8 3 cs
      if after.length < cs.length then ([UInt8.ofNat n], after) else (92 :: Utf8.encodeChar c, rest)

def unescapeAll : Nat → List Char → Bytes
  | 0, _ => []
  | _, [] => []
  | fuel + 1, '\\' :: rest => (unescape rest).1 ++ unescapeAll fuel (unescape rest).2
  | fuel + 1, c :: rest => Utf8.encodeChar c ++ unescapeAll fuel rest

def format : Nat → List Char → List String → Bytes × List String
  | 0, _, args => ([], args)
  | _, [], args => ([], args)
  | fuel + 1, '\\' :: rest, args =>
    let after := format fuel (unescape rest).2 args
    ((unescape rest).1 ++ after.1, after.2)
  | fuel + 1, '%' :: '%' :: rest, args =>
    let after := format fuel rest args
    (37 :: after.1, after.2)
  | fuel + 1, '%' :: c :: rest, args =>
    let arg := args.headD ""
    let shown :=
      if c = 'd' ∨ c = 'i' then bytesOf (toString (arg.toInt?.getD 0))
      else if c = 'b' then unescapeAll arg.length arg.toList
      else if c = 'c' then Utf8.encode (arg.toList.take 1)
      else bytesOf arg
    let after := format fuel rest args.tail
    (shown ++ after.1, after.2)
  | fuel + 1, c :: rest, args =>
    let after := format fuel rest args
    (Utf8.encodeChar c ++ after.1, after.2)

def formatAll (cs : List Char) : Nat → List String → Bytes
  | 0, args => (format (cs.length + 1) cs args).1
  | again + 1, args =>
    let (out, left) := format (cs.length + 1) cs args
    if left.isEmpty ∨ left.length = args.length then out else out ++ formatAll cs again left

def printf (p : Place) : List String → Done
  | [] => fails p "printf: missing operand" 1
  | f :: args => done p (formatAll f.toList args.length args)

def echo (p : Place) (args : List String) : Done :=
  match args with
  | "-n" :: rest => done p (bytesOf (" ".intercalate rest))
  | args => done p (bytesOf (" ".intercalate args ++ "\n"))

def echoEscaped (p : Place) (args : List String) : Done :=
  let text := fun (l : List String) => " ".intercalate l
  match args with
  | "-n" :: rest => done p (unescapeAll (text rest).length (text rest).toList)
  | args => done p (unescapeAll (text args).length (text args).toList ++ [10])

def octetsOf : Source → Bytes
  | .octets b => b
  | .zeros => []

def gather (p : Place) (tool : String) (input : Source) : List String → Except String Source
  | [] => .ok input
  | ["-"] => .ok input
  | [path] =>
    match p.read? path with
    | some s => .ok s
    | none => .error (missing tool "" path)
  | path :: rest =>
    match p.read? path, gather p tool input rest with
    | some s, .ok more => .ok (.octets (octetsOf s ++ octetsOf more))
    | none, _ => .error (missing tool "" path)
    | _, .error e => .error e

def filtering (p : Place) (tool : String) (input : Source) (paths : List String)
    (f : Source → Bytes) : Done :=
  match gather p tool input paths with
  | .ok s => done p (f s)
  | .error e => fails p e 1

def takeSource (n : Nat) : Source → Bytes
  | .octets b => b.take n
  | .zeros => List.replicate n 0

def head (p : Place) (input : Source) (args : List String) : Done :=
  let first := fun (n : Nat) (s : Source) => unlines ((lines (octetsOf s)).take n)
  match args with
  | "-c" :: n :: paths => filtering p "head" input paths (takeSource (n.toNat?.getD 0))
  | "-n" :: n :: paths => filtering p "head" input paths (first (n.toNat?.getD 0))
  | paths => filtering p "head" input paths (first 10)

def octetSet : Nat → Bytes → Bytes
  | 0, _ => []
  | fuel + 1, a :: 45 :: b :: rest =>
    (List.range (b.toNat + 1 - a.toNat)).map (fun i => UInt8.ofNat (a.toNat + i))
      ++ octetSet fuel rest
  | fuel + 1, a :: rest => a :: octetSet fuel rest
  | _, [] => []

def readSet (s : String) : Bytes :=
  let b := unescapeAll s.length s.toList
  octetSet b.length b

def exchanged (old new : Bytes) (b : UInt8) : UInt8 :=
  let i := old.idxOf b
  if i < old.length then (new[i]?.getD (new.getLast?.getD b)) else b

def tr (p : Place) (input : Source) : List String → Done
  | ["-d", set] => done p ((octetsOf input).filter fun b => !(readSet set).contains b)
  | [a, b] => done p ((octetsOf input).map (exchanged (readSet a) (readSet b)))
  | _ => fails p "tr: missing operand" 1

def sortBytes (ls : List Bytes) : List Bytes :=
  ls.foldr (fun l sorted => sorted.takeWhile (· < l) ++ [l] ++ sorted.dropWhile (· < l)) []

def sort (p : Place) (input : Source) (args : List String) : Done :=
  let paths := args.filter fun a => a ≠ "-r" ∧ a ≠ "-u"
  filtering p "sort" input paths fun s =>
    let ls := sortBytes (lines (octetsOf s))
    let ls := if args.contains "-u" then ls.eraseDups else ls
    unlines (if args.contains "-r" then ls.reverse else ls)

def count (args : List String) (b : Bytes) : Nat :=
  if args.contains "-l" then (b.filter (· == 10)).length
  else if args.contains "-w" then
    ((b.splitBy fun x y => (x == 32 || x == 10) == (y == 32 || y == 10)).filter
      fun run => !(run.head?.any fun x => x == 32 || x == 10)).length
  else b.length

def wc (p : Place) (input : Source) (args : List String) : Done :=
  let paths := args.filter fun a => a.toList.head? ≠ some '-'
  match gather p "wc" input paths with
  | .error e => fails p e 1
  | .ok s =>
    let name := match paths with
      | [path] => " " ++ path
      | _ => ""
    done p (bytesOf (Nat.repr (count args (octetsOf s)) ++ name ++ "\n"))

def cut (p : Place) (input : Source) : List String → Done
  | [] => fails p "cut: you must specify a list of bytes, characters, or fields" 1
  | flag :: rest =>
    let span := if flag = "-c" then (rest.headD "").toList else flag.toList.drop 2
    let (low, after) := number 10 9 span
    let high := match after with
      | ['-'] => none
      | _ :: n => some (number 10 9 n).1
      | [] => some low
    filtering p "cut" input (if flag = "-c" then rest.tail else rest) fun s =>
      unlines ((lines (octetsOf s)).map fun l =>
        (match high with
          | some h => l.take h
          | none => l).drop (low - 1))

def namesOf : Node → List Name
  | .dir entries => (entries.map (·.1)).filter fun n => n.head? ≠ some 46
  | _ => []

def ls (p : Place) (args : List String) : Done :=
  let path := (args.find? fun a => a.toList.head? ≠ some '-').getD "."
  match p.node? path with
  | none => fails p ("ls: cannot access '" ++ path ++ "': No such file or directory") 2
  | some (.dir entries) => done p (unlines (namesOf (.dir entries)))
  | some _ => done p (bytesOf (path ++ "\n"))

def find (p : Place) (args : List String) : Done :=
  let path := match args.head? with
    | some a => if a.toList.head? = some '-' then "." else a
    | none => "."
  let wanted := fun (n : Node) =>
    match args.dropWhile (· ≠ "-type"), n with
    | _ :: "f" :: _, .file _ => true
    | _ :: "d" :: _, .dir _ => true
    | _ :: "l" :: _, .link _ => true
    | _ :: _ :: _, _ => false
    | _, _ => true
  match p.node? path with
  | none =>
    fails p ("find: '" ++ path ++ "': No such file or directory") 1
  | some top =>
    let all := (bytesOf path, top) :: top.descendants.map fun e =>
      (bytesOf path ++ [47] ++ [47].intercalate e.1, e.2)
    done p (unlines ((all.filter fun e => wanted e.2).map (·.1)))

def eachPath (p : Place) (act : Place → String → Done) : List String → Done
  | [] => done p []
  | path :: rest =>
    let d := act p path
    if d.code = 0 then eachPath { p with files := d.files } act rest else d

def operands (args : List String) : List String := args.filter fun a => a.toList.head? ≠ some '-'

def hasFlag (args : List String) (c : Char) : Bool :=
  args.any fun a => a.toList.head? == some '-' && a.toList.contains c

def mkdir (p : Place) (args : List String) : Done :=
  eachPath p (fun p path =>
    match p.steps? path with
    | none => fails p (missing "mkdir" "cannot create directory " path) 1
    | some steps =>
      if hasFlag args 'p' then
        match p.files.makeDirs steps with
        | (.ok (), v) => ⟨[], "", 0, v⟩
        | (.error f, v) =>
          ⟨[], "mkdir: cannot create directory '" ++ path ++ "': " ++ f.message ++ "\n", 1, v⟩
      else if (p.node? path).isSome then
        fails p ("mkdir: cannot create directory '" ++ path ++ "': File exists") 1
      else
        match p.files.makeDir steps with
        | .ok v => ⟨[], "", 0, v⟩
        | .error f =>
          fails p ("mkdir: cannot create directory '" ++ path ++ "': " ++ f.message) 1)
    (operands args)

def entryPath? (p : Place) (path : String) : Option (List Name) :=
  (p.steps? path).bind fun steps =>
    match steps.getLast? with
    | none => some [Volume.rootName]
    | some name =>
      match p.files.find steps.dropLast with
      | .ok dir => if (p.files.node? (dir ++ [name])).isSome then some (dir ++ [name]) else none
      | .error _ => none

def rm (p : Place) (args : List String) : Done :=
  eachPath p (fun p path =>
    match entryPath? p path with
    | none =>
      if hasFlag args 'f' then done p []
      else fails p (missing "rm" "cannot remove " ("'" ++ path ++ "'")) 1
    | some place =>
      if p.files.isDirNode place && !(hasFlag args 'r' || hasFlag args 'R') then
        fails p ("rm: cannot remove '" ++ path ++ "': Is a directory") 1
      else ⟨[], "", 0, p.files.erase place⟩)
    (operands args)

def touch (p : Place) (args : List String) : Done :=
  eachPath p (fun p path =>
    if (p.node? path).isSome then done p []
    else
      match p.write? path [] with
      | some v => ⟨[], "", 0, v⟩
      | none => fails p (missing "touch" "cannot touch " ("'" ++ path ++ "'")) 1)
    (operands args)

def tool? (name : String) : Option (Place → Source → List String → Done) :=
  match name with
  | "true" => some fun p _ _ => done p []
  | "false" => some fun p _ _ => ⟨[], "", 1, p.files⟩
  | "sleep" => some fun p _ _ => done p []
  | "echo" => some fun p _ args => echo p args
  | "printf" => some fun p _ args => printf p args
  | "pwd" => some fun p _ _ => done p (bytesOf (p.path ++ "\n"))
  | "cat" => some fun p input args => filtering p "cat" input args octetsOf
  | "head" => some head
  | "tr" => some tr
  | "sort" => some sort
  | "wc" => some wc
  | "cut" => some cut
  | "ls" => some fun p _ args => ls p args
  | "find" => some fun p _ args => find p args
  | "mkdir" => some fun p _ args => mkdir p args
  | "rm" => some fun p _ args => rm p args
  | "touch" => some fun p _ args => touch p args
  | _ => none

end ControlPlane.Shell
