import ControlPlane.Event
-- Reading events from an input that arrives in pieces. A line may span pieces, and a
-- piece may hold many lines. A read that fails loses the line it falls into.
namespace ControlPlane

inductive Read where
  | piece (bytes : Bytes)
  | interrupted
  | failed (detail : String)
deriving DecidableEq

abbrev Item := Except StreamFault Event

namespace EventReader

def lineItem (words : Json.Words) (line : Bytes) : Option Item :=
  match Utf8.decode? line with
  | none => some (.error (.malformed "exec event is not valid UTF-8"))
  | some text =>
    let text := trimList text
    if text.isEmpty then none else some (Event.decode words text)

-- Takes octets into the unfinished line, which is kept back to front, and yields the
-- items of the lines that end.
def feed (words : Json.Words) (line : Bytes) : Bytes → List Item × Bytes
  | [] => ([], line)
  | b :: rest =>
    if b = 10 then
      let fed := feed words [] rest
      ((lineItem words line.reverse).toList ++ fed.1, fed.2)
    else feed words (b :: line) rest

def itemsFrom (words : Json.Words) (line : Bytes) : List Read → List Item
  | [] => if line.isEmpty then [] else (lineItem words line.reverse).toList
  | .piece bytes :: rest =>
    let fed := feed words line bytes
    fed.1 ++ itemsFrom words fed.2 rest
  | .interrupted :: rest => itemsFrom words line rest
  | .failed detail :: rest => .error (.broken detail) :: itemsFrom words [] rest

def items (words : Json.Words) (reads : List Read) : List Item :=
  itemsFrom words [] reads

-- An input that is read on demand: the octets that a read has brought and no line has
-- taken, and the reads to come.
structure Source where
  left : Bytes
  reads : List Read

-- Takes a line, with its newline if it has one. It is empty at the end of the input only.
-- A read that fails loses what the line had taken.
def takeLine (line left : Bytes) (reads : List Read) : Except String Bytes × Source :=
  match left.dropWhile (· ≠ 10) with
  | _ :: rest => (.ok (line ++ left.takeWhile (· ≠ 10) ++ [10]), ⟨rest, reads⟩)
  | [] =>
    match reads with
    | [] => (.ok (line ++ left), ⟨[], []⟩)
    | .piece bytes :: reads => takeLine (line ++ left) bytes reads
    | .interrupted :: reads => takeLine (line ++ left) [] reads
    | .failed detail :: reads => (.error detail, ⟨[], reads⟩)

inductive Turn where
  | ended
  | skipped (rest : Source)
  | found (item : Item) (rest : Source)

def turn (words : Json.Words) (s : Source) : Turn :=
  match takeLine [] s.left s.reads with
  | (.error detail, rest) => .found (.error (.broken detail)) rest
  | (.ok line, rest) =>
    if line.isEmpty then .ended
    else match lineItem words line with
      | none => .skipped rest
      | some item => .found item rest

end EventReader

end ControlPlane
