import ControlPlane.ExecutorError
import ControlPlane.Text.Sorted
import ControlPlane.Transfer.Glob
import ControlPlane.TransferOpts
-- What a transfer copies and where to. A source that an exclude matches is left out with
-- everything below it.
namespace ControlPlane

structure TransferEntry where
  src : String
  dest : String
  isDir : Bool
deriving DecidableEq

namespace Transfer

def ioError (fault : Fault) : ExecutorError := .io fault.message

def parentOf (path : String) : String :=
  let front := (segments path).dropLast
  if front.isEmpty then "." else joinNames front

def lastName (path : String) : String := (segments path).getLast?.getD ""

def stripBase (path base : String) : String :=
  if base = "." then path
  else if base.toList.isPrefixOf path.toList then
    String.ofList ((path.toList.drop base.toList.length).dropWhile (· == '/'))
  else path

def readExcludes : List String → Except ExecutorError (List Pattern)
  | [] => .ok []
  | text :: rest =>
    match Pattern.read text with
    | .error e => .error (.transfer (.badExclude text e))
    | .ok p => (readExcludes rest).map (p :: ·)

def isExcluded (excludes : List Pattern) (path : String) : Bool :=
  excludes.any (·.isMatch path)

def childPath (path name : String) : String := if path = "." then name else path ++ "/" ++ name

-- A path and everything below it, in the order of names, down to a depth that no path of
-- the volume exceeds.
def walkFrom (v : Volume) (excludes : List Pattern) :
    Nat → String → Except Fault (List (String × Bool))
  | 0, _ => .error .tooManyLinks
  | depth + 1, path =>
    if path ≠ "." ∧ isExcluded excludes path then .ok []
    else
      match v.statPath path with
      | .error f => .error f
      | .ok (.dir entries) =>
        let names := sortTexts (entries.map fun e => lossyTextOf e.1)
        (names.mapM fun name => walkFrom v excludes depth (childPath path name)).map
          fun below => (path, true) :: below.flatten
      | .ok _ => .ok [(path, false)]

def walk (v : Volume) (excludes : List Pattern) (path : String) :
    Except ExecutorError (List (String × Bool)) :=
  (walkFrom v excludes v.levels path).mapError ioError

-- Where what is found at a path goes, when the base stands for the destination. Without a
-- destination it keeps its path.
def destFor (dest base path : String) : String :=
  if dest = "" then path else cleanJoin dest (stripBase path base)

-- The entries for what was found. The destination root itself is no entry.
def entriesFor (dest base : String) (found : List (String × Bool)) : List TransferEntry :=
  (found.map fun f => ⟨f.1, destFor dest base f.1, f.2⟩).filter (·.dest ≠ ".")

def withoutRepeats (entries : List TransferEntry) : List TransferEntry :=
  entries.eraseDupsBy fun a b => a.src == b.src && a.dest == b.dest

def planMatch (v : Volume) (excludes : List Pattern) (dest found : String) :
    Except ExecutorError (List TransferEntry) :=
  (walk v excludes found).map (entriesFor dest (parentOf found))

def planGlob (v : Volume) (excludes : List Pattern) (src dest : String) :
    Except ExecutorError (List TransferEntry) :=
  match Glob.read src with
  | .error e => .error (.transfer (.badPattern src e))
  | .ok glob =>
    match glob.matchesOf v with
    | [] => .error (.transfer (.noMatch src))
    | found =>
      (found.mapM (planMatch v excludes dest)).map fun plans => withoutRepeats plans.flatten

def trimSource (src : String) : String :=
  let trimmed := trimSlashes src
  if trimmed = "" then "." else trimmed

def planContents (v : Volume) (excludes : List Pattern) (path dest : String) :
    Except ExecutorError (List TransferEntry) :=
  (walk v excludes path).map fun found => entriesFor dest path (found.filter (·.1 ≠ path))

-- A slash at the end of the destination puts the directory into it.
def planDirectory (v : Volume) (excludes : List Pattern) (path dest : String) :
    Except ExecutorError (List TransferEntry) :=
  (walk v excludes path).map
    (entriesFor dest (if endsInSlash dest then parentOf path else path))

def fileDest (path dest : String) : String :=
  if dest = "" then path
  else if endsInSlash dest ∨ cleanJoin dest "" = "." then cleanJoin dest (lastName path)
  else cleanJoin dest ""

def planFile (excludes : List Pattern) (path dest : String) : List TransferEntry :=
  if isExcluded excludes path then []
  else [(⟨path, fileDest path dest, false⟩ : TransferEntry)].filter (·.dest ≠ ".")

def planPlain (v : Volume) (excludes : List Pattern) (src dest : String) :
    Except ExecutorError (List TransferEntry) :=
  let path := trimSource src
  match v.statPath path with
  | .error .notFound => .error (.transfer (.missingSource src))
  | .error f => .error (ioError f)
  | .ok node =>
    if endsInSlash src ∨ path = "." then planContents v excludes path dest
    else if node.isDir then planDirectory v excludes path dest
    else .ok (planFile excludes path dest)

def plan (v : Volume) (src : String) (opts : TransferOpts) :
    Except ExecutorError (List TransferEntry) :=
  match opts.check src with
  | .error e => .error (.config e)
  | .ok () =>
    match readExcludes opts.excludes with
    | .error e => .error e
    | .ok excludes =>
      if isWild src then planGlob v excludes src opts.dest
      else planPlain v excludes src opts.dest

end Transfer

end ControlPlane
