-- Text as octets. `scan` yields a character for each well-formed sequence and a gap for
-- each maximal ill-formed part, so a strict reading and a lossy one differ only in what
-- they make of a gap.
namespace ControlPlane

abbrev Bytes := List UInt8

namespace Utf8

def encodeChar (c : Char) : Bytes :=
  let n := c.toNat
  if n < 0x80 then [UInt8.ofNat n]
  else if n < 0x800 then [UInt8.ofNat (0xC0 + n / 64), UInt8.ofNat (0x80 + n % 64)]
  else if n < 0x10000 then
    [UInt8.ofNat (0xE0 + n / 4096), UInt8.ofNat (0x80 + n / 64 % 64), UInt8.ofNat (0x80 + n % 64)]
  else
    [UInt8.ofNat (0xF0 + n / 262144), UInt8.ofNat (0x80 + n / 4096 % 64),
      UInt8.ofNat (0x80 + n / 64 % 64), UInt8.ofNat (0x80 + n % 64)]

def encode (cs : List Char) : Bytes := cs.flatMap encodeChar

-- A sequence that has begun: how many octets are still to come, the bounds of the next
-- one, and the bits read so far. The bounds shut out overlong forms, surrogates and
-- numbers past the last character.
structure Pending where
  left : Nat
  low : Nat
  high : Nat
  bits : Nat
deriving DecidableEq

inductive Lead where
  | whole (c : Char)
  | begins (p : Pending)
  | illFormed
deriving DecidableEq

def lead (b : Nat) : Lead :=
  if b < 0x80 then .whole (Char.ofNat b)
  else if b < 0xC2 then .illFormed
  else if b < 0xE0 then .begins ⟨1, 0x80, 0xBF, b - 0xC0⟩
  else if b < 0xF0 then
    .begins ⟨2, if b = 0xE0 then 0xA0 else 0x80, if b = 0xED then 0x9F else 0xBF, b - 0xE0⟩
  else if b < 0xF5 then
    .begins ⟨3, if b = 0xF0 then 0x90 else 0x80, if b = 0xF4 then 0x8F else 0xBF, b - 0xF0⟩
  else .illFormed

def Pending.take (p : Pending) (b : Nat) : Option (Char ⊕ Pending) :=
  if p.low ≤ b ∧ b ≤ p.high then
    let bits := p.bits * 64 + b % 64
    if p.left ≤ 1 then some (.inl (Char.ofNat bits))
    else some (.inr ⟨p.left - 1, 0x80, 0xBF, bits⟩)
  else none

def start (b : UInt8) : List (Option Char) × Option Pending :=
  match lead b.toNat with
  | .whole c => ([some c], none)
  | .begins p => ([], some p)
  | .illFormed => ([none], none)

def advance (state : Option Pending) (b : UInt8) : List (Option Char) × Option Pending :=
  match state with
  | none => start b
  | some p =>
    match p.take b.toNat with
    | some (.inl c) => ([some c], none)
    | some (.inr q) => ([], some q)
    | none => (none :: (start b).1, (start b).2)

def scanFrom : Option Pending → Bytes → List (Option Char)
  | none, [] => []
  | some _, [] => [none]
  | state, b :: rest => (advance state b).1 ++ scanFrom (advance state b).2 rest

def scan (bytes : Bytes) : List (Option Char) := scanFrom none bytes

def decode? (bytes : Bytes) : Option (List Char) := (scan bytes).mapM id

-- Every ill-formed part becomes one replacement character.
def decodeLossy (bytes : Bytes) : List Char := (scan bytes).map fun c => c.getD '\uFFFD'

end Utf8

def bytesOf (s : String) : Bytes := Utf8.encode s.toList

def textOf? (bytes : Bytes) : Option String := (Utf8.decode? bytes).map String.ofList

def lossyTextOf (bytes : Bytes) : String := String.ofList (Utf8.decodeLossy bytes)

end ControlPlane
