import ControlPlane.Volume.Reach
-- Changing a volume: directories with all those above them, and files. What was done
-- before a fault stays.
namespace ControlPlane.Volume

def isDirNode (v : Volume) (path : List Name) : Bool := (v.node? path).any Node.isDir

def makeDir (v : Volume) (steps : List Name) : Except Fault Volume :=
  match steps.getLast? with
  | none => if v.isDirAt [] then .ok v else .error .notFound
  | some name =>
    match v.find steps.dropLast with
    | .error f => .error f
    | .ok dir =>
      match v.node? dir with
      | some (.dir entries) =>
        if name = dotDot ∨ name = dot then .ok v
        else if name.length > longestName then .error .nameTooLong
        else
          match entries.lookup name with
          | none => .ok (v.put (dir ++ [name]) (.dir []))
          | some _ => if v.isDirAt steps then .ok v else .error .alreadyExists
      | some _ => .error .notDirectory
      | none => .error .notFound

def makeDirsFrom (v : Volume) (done : List Name) : List Name → Except Fault Unit × Volume
  | [] => (.ok (), v)
  | step :: steps =>
    match v.makeDir (done ++ [step]) with
    | .error f => (.error f, v)
    | .ok v => makeDirsFrom v (done ++ [step]) steps

-- The root comes first: it is made again if it is gone.
def makeRoot (v : Volume) : Volume :=
  match v.root? with
  | some _ => v
  | none => v.put [rootName] (.dir [])

-- All directories of a path. Dots in between do not count. At the end a dot names the
-- directory before it, which must be there.
def makeDirs (v : Volume) (steps : List Name) : Except Fault Unit × Volume :=
  let real := steps.filter (· ≠ dot)
  let v := v.makeRoot
  if steps.getLast? = some dot then
    match makeDirsFrom v [] real.dropLast with
    | (.ok (), v) => (if v.isDirAt real then .ok () else .error .notFound, v)
    | failed => failed
  else makeDirsFrom v [] real

def stepsAbove (steps : List Name) : List Name := (steps.filter (· ≠ dot)).dropLast

def writeFile (v : Volume) (steps : List Name) (content : File) : Except Fault Volume :=
  match v.spot steps with
  | .error f => .error f
  | .ok (.free dir name) => .ok (v.put (dir ++ [name]) (.file content))
  | .ok (.taken path) =>
    match v.node? path with
    | some (.file old) =>
      if old.readOnly then .error .permissionDenied else .ok (v.put path (.file content))
    | some (.dir _) => .error .isDirectory
    | _ => .error .notFound

def readFile (v : Volume) (steps : List Name) : Except Fault File :=
  match v.stat steps with
  | .error f => .error f
  | .ok (.file content) => .ok content
  | .ok _ => .error .notRegular

end ControlPlane.Volume
