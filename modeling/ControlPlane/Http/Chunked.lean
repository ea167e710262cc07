import ControlPlane.Text.Utf8
-- A body in chunks, each behind its size in hexadecimal digits. An empty chunk ends it.
namespace ControlPlane.Chunked

def crlf : Bytes := [13, 10]

def sizeDigits (n : Nat) : List Char := (Nat.toDigits 16 n).map Char.toUpper

def chunk (data : Bytes) : Bytes := Utf8.encode (sizeDigits data.length) ++ crlf ++ data ++ crlf

def lastChunk : Bytes := chunk []

def write (chunks : List Bytes) : Bytes := chunks.flatMap chunk ++ lastChunk

def digit? (b : UInt8) : Option Nat :=
  let n := b.toNat
  if 48 ≤ n ∧ n ≤ 57 then some (n - 48)
  else if 65 ≤ n ∧ n ≤ 70 then some (n - 55)
  else if 97 ≤ n ∧ n ≤ 102 then some (n - 87)
  else none

def readSize (size : Nat) : Bytes → Option (Nat × Bytes)
  | 13 :: 10 :: rest => some (size, rest)
  | b :: rest => (digit? b).bind fun d => readSize (size * 16 + d) rest
  | [] => none

def readChunk (body : Bytes) : Option (Bytes × Bytes) :=
  match body.head?.bind digit?, readSize 0 body with
  | some _, some (size, rest) =>
    let after := rest.drop size
    if after.take 2 = crlf then some (rest.take size, after.drop 2) else none
  | _, _ => none

-- All chunks before the empty one, behind which nothing may follow.
def read? (body : Bytes) : Option (List Bytes) :=
  match readChunk body with
  | some ([], []) => some []
  | some (data, rest) =>
    if data.isEmpty then none
    else if rest.length < body.length then (read? rest).map (data :: ·)
    else none
  | none => none
termination_by body.length

end ControlPlane.Chunked
