-- JSON documents. A string token that escapes half of a surrogate pair names no text and
-- stands as `none`. A number is kept as written.
namespace ControlPlane.Json

abbrev Text := Option String

inductive Number where
  | whole (negative : Bool) (magnitude : Nat)
  | decimal (negative : Bool) (mantissa : Nat) (exponent : Int)
deriving DecidableEq

inductive Value where
  | null
  | bool (b : Bool)
  | number (n : Number)
  | string (t : Text)
  | array (items : List Value)
  | object (members : List (Text × Value))
deriving Inhabited

def Value.ofString (s : String) : Value := .string (some s)

def Value.ofNat (n : Nat) : Value := .number (.whole false n)

def Value.ofInt (i : Int) : Value := .number (.whole (decide (i < 0)) i.natAbs)

def Value.ofStrings (l : List String) : Value := .array (l.map .ofString)

def Value.record (members : List (String × Value)) : Value :=
  .object (members.map fun m => (some m.1, m.2))

-- A whole number as an integer. The token `-0` is not one.
def Number.toInt? : Number → Option Int
  | .whole false n => some n
  | .whole true 0 => none
  | .whole true n => some (-n)
  | .decimal .. => none

def digitCount (n : Nat) : Nat := (Nat.toDigits 10 n).length

-- The least magnitude that no binary64 number represents: halfway between the largest
-- finite one and the power of two above it.
def doubleLimit : Nat := Nat.pow 2 1024 - Nat.pow 2 970

-- Whether a number is within the range of binary64. The digit counts decide all but a
-- narrow band, so that no power of ten is large.
def Number.isFinite : Number → Bool
  | .whole _ n => n < doubleLimit
  | .decimal _ m e =>
    if m = 0 then true
    else
      let size := (digitCount m : Int) + e
      if size ≤ 308 then true
      else if size > 310 then false
      else if e < 0 then m < doubleLimit * Nat.pow 10 e.natAbs
      else m * Nat.pow 10 e.natAbs < doubleLimit

mutual
def Value.depth : Value → Nat
  | .array items => depthOfItems items + 1
  | .object members => depthOfMembers members + 1
  | _ => 0

def depthOfItems : List Value → Nat
  | [] => 0
  | v :: rest => max v.depth (depthOfItems rest)

def depthOfMembers : List (Text × Value) → Nat
  | [] => 0
  | (_, v) :: rest => max v.depth (depthOfMembers rest)
end

mutual
def Value.isPlain : Value → Bool
  | .null => true
  | .bool _ => true
  | .number n => n.isFinite
  | .string t => t.isSome
  | .array items => plainItems items
  | .object members => plainMembers members

def plainItems : List Value → Bool
  | [] => true
  | v :: rest => v.isPlain && plainItems rest

def plainMembers : List (Text × Value) → Bool
  | [] => true
  | (name, v) :: rest => name.isSome && v.isPlain && plainMembers rest
end

end ControlPlane.Json
