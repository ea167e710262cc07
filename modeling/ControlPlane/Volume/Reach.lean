import ControlPlane.Volume.Basic
-- Following a path from the root of a volume. Links are followed, at most forty of them
-- on one way.
namespace ControlPlane

inductive Fault where
  | notFound
  | notDirectory
  | isDirectory
  | alreadyExists
  | tooManyLinks
  | nameTooLong
  | holdsNul
  | notRegular
  | permissionDenied
deriving DecidableEq

def Fault.message : Fault → String
  | .notFound => "no such file or directory"
  | .notDirectory => "not a directory"
  | .isDirectory => "is a directory"
  | .alreadyExists => "file exists"
  | .tooManyLinks => "too many levels of symbolic links"
  | .nameTooLong => "file name too long"
  | .holdsNul => "file name contained an unexpected NUL byte"
  | .notRegular => "the source path is neither a regular file nor a link to one"
  | .permissionDenied => "permission denied"

inductive Spot where
  | taken (path : List Name)
  | free (dir : List Name) (name : Name)
deriving DecidableEq

def dot : Name := [46]

def dotDot : Name := [46, 46]

def partsOf (path : Bytes) : List Name := (path.splitOn 47).filter fun s => !s.isEmpty

-- The steps of a path. A slash at the end asks for a directory, as a dot does.
def stepsOf (path : Bytes) : List Name :=
  if path.getLast? = some 47 then partsOf path ++ [dot] else partsOf path

namespace Volume

def linkLimit : Nat := 40

def longestName : Nat := 255

-- Takes the steps one by one from a place. `onLink` continues behind a link.
def follow (v : Volume) (onLink : List Name → List Name → Except Fault Spot)
    (here : List Name) : List Name → Except Fault Spot
  | [] => .ok (.taken here)
  | step :: steps =>
    match v.node? here with
    | none => .error .notFound
    | some (.dir entries) =>
      if step = dot then follow v onLink here steps
      else if step = dotDot then follow v onLink here.dropLast steps
      else if step.length > longestName then .error .nameTooLong
      else
        match entries.lookup step with
        | none => if steps.isEmpty then .ok (.free here step) else .error .notFound
        | some (.link target) =>
          if target.isEmpty ∨ target.head? = some 47 then .error .notFound
          else onLink here (stepsOf target ++ steps)
        | some _ => follow v onLink (here ++ [step]) steps
    | some _ => .error .notDirectory

def walk (v : Volume) : Nat → List Name → List Name → Except Fault Spot
  | 0 => follow v fun _ _ => .error .tooManyLinks
  | links + 1 => follow v (walk v links)

def spot (v : Volume) (steps : List Name) : Except Fault Spot :=
  match v.root? with
  | none => .error .notFound
  | some _ => walk v linkLimit [rootName] steps

def find (v : Volume) (steps : List Name) : Except Fault (List Name) :=
  match v.spot steps with
  | .ok (.taken path) => .ok path
  | .ok (.free ..) => .error .notFound
  | .error f => .error f

def stat (v : Volume) (steps : List Name) : Except Fault Node := do
  let path ← v.find steps
  match v.node? path with
  | some n => .ok n
  | none => .error .notFound

-- The steps of a path written as text. An absolute path leads nowhere within a volume.
def pathSteps (path : String) : Except Fault (List Name) :=
  let bytes := bytesOf path
  if bytes.contains 0 then .error .holdsNul
  else if bytes.head? = some 47 then .error .notFound
  else .ok (stepsOf bytes)

def statPath (v : Volume) (path : String) : Except Fault Node :=
  (pathSteps path).bind v.stat

def isDirAt (v : Volume) (steps : List Name) : Bool :=
  match v.stat steps with
  | .ok n => n.isDir
  | .error _ => false

def hasEntry (v : Volume) (dir : List Name) (name : Name) : Bool :=
  match v.stat dir with
  | .ok (.dir entries) => (entries.lookup name).isSome
  | _ => false

-- No path enters more directories than this: each of the links on the way may lead down
-- the whole volume.
def levels (v : Volume) : Nat := (linkLimit + 1) * (v.topNode.height + 1)

end Volume

end ControlPlane
