-- Paths as text: segments between slashes, and the clean form in which no segment is
-- empty or a single dot and a double dot has taken back the name before it.
namespace ControlPlane

def segments (path : String) : List String := (path.toList.splitOn '/').map String.ofList

def joinNames (names : List String) : String := "/".intercalate names

def settle (names : List String) (segment : String) : List String :=
  if segment = "" ∨ segment = "." then names
  else if segment = ".." then names.dropLast
  else names ++ [segment]

def cleanNames (parts : List String) : List String := parts.foldl settle []

def cleanText (names : List String) : String := if names.isEmpty then "." else joinNames names

def cleanJoin (a b : String) : String := cleanText (cleanNames (segments a ++ segments b))

end ControlPlane
