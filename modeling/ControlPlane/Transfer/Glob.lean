import ControlPlane.Pattern
import ControlPlane.Text.Blank
import ControlPlane.Text.Segments
import ControlPlane.Volume.Reach
-- Sources with wildcards, matched component by component from the root of a volume.
-- Matches come in the order of names.
namespace ControlPlane

def isWild (src : String) : Bool := src.toList.any fun c => c == '*' || c == '?' || c == '['

def endsInSlash (path : String) : Bool := path.toList.getLast? == some '/'

-- `dirsOnly` is asked for by a slash at the end.
structure Glob where
  components : List Pattern
  dirsOnly : Bool

namespace Glob

def collapse : List Pattern → List Pattern
  | p :: q :: rest =>
    if p.isRecursive && q.isRecursive then collapse (q :: rest) else p :: collapse (q :: rest)
  | short => short

def componentsOf (src : String) : List String :=
  if endsInSlash src then (segments src).dropLast else segments src

def readAll : List String → Except PatternError (List Pattern)
  | [] => .ok []
  | text :: rest =>
    match Pattern.read text with
    | .error e => .error e
    | .ok p => (readAll rest).map (p :: ·)

def read (src : String) : Except PatternError Glob :=
  match Pattern.read src with
  | .error e => .error e
  | .ok _ => (readAll (componentsOf src)).map fun ps => ⟨collapse ps, endsInSlash src⟩

-- Only names that are text can match.
def nameMatches (p : Pattern) (name : Name) : Bool :=
  match textOf? name with
  | some text => p.isMatch text
  | none => false

def namesAt (v : Volume) (place : List Name) : List Name :=
  match v.stat place with
  | .ok (.dir entries) => entries.map (·.1)
  | _ => []

def placesBelow (v : Volume) : Nat → List Name → List (List Name)
  | 0, _ => []
  | depth + 1, place =>
    (namesAt v place).flatMap fun name =>
      (place ++ [name]) :: placesBelow v depth (place ++ [name])

-- A component without wildcards is looked up. Dots count only where there is a directory,
-- and the empty component stays where it is.
def lookUp (v : Volume) (place : List Name) (name : Name) : List (List Name) :=
  if name.isEmpty then if v.isDirAt place then [place] else []
  else if name = dot ∨ name = dotDot then
    if v.isDirAt place then [place ++ [name]] else []
  else if v.hasEntry place name then [place ++ [name]] else []

def dotsFor (p : Pattern) : List Name :=
  if p.startsWithDot then [dotDot, dot].filter (nameMatches p) else []

def expand (v : Volume) (dirsOnly : Bool) : List Pattern → List Name → List (List Name)
  | [], place => if dirsOnly && !v.isDirAt place then [] else [place]
  | p :: rest, place =>
    match p.literal? with
    | some text => (lookUp v place (Utf8.encode text)).flatMap (expand v dirsOnly rest)
    | none =>
      if p.isRecursive then
        match rest with
        | [] => (placesBelow v v.levels place).filter v.isDirAt
        | q :: rest =>
          (placesBelow v v.levels place).flatMap fun found =>
            if (found.getLast?.map (nameMatches q)).getD false then expand v dirsOnly rest found
            else []
      else if v.isDirAt place then
        (dotsFor p ++ (namesAt v place).filter (nameMatches p)).flatMap fun name =>
          expand v dirsOnly rest (place ++ [name])
      else []

def plainSlashes (path : String) : String :=
  String.ofList (path.toList.map fun c => if c = '\\' then '/' else c)

-- A match as text. Single dots at its ends do not count.
def placeText (place : List Name) : String :=
  let names := dropTrailing (· == dot) (place.dropWhile (· == dot))
  plainSlashes (joinNames (names.map lossyTextOf))

def matchesOf (g : Glob) (v : Volume) : List String :=
  ((expand v g.dirsOnly g.components []).map placeText).filter (· ≠ "")

end Glob

end ControlPlane
