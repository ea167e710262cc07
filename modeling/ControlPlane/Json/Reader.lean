import ControlPlane.Json.Value
import ControlPlane.Text.Utf8
-- Reading a document from text. The recursion is bounded by the length of the text, since
-- every token takes a character.
namespace ControlPlane.Json

def isSpace (c : Char) : Bool := c == ' ' || c == '\t' || c == '\n' || c == '\r'

def skip (s : List Char) : List Char := s.dropWhile isSpace

def hexValue? (c : Char) : Option Nat :=
  let n := c.toNat
  if 48 ≤ n ∧ n ≤ 57 then some (n - 48)
  else if 97 ≤ n ∧ n ≤ 102 then some (n - 87)
  else if 65 ≤ n ∧ n ≤ 70 then some (n - 55)
  else none

def hexUnit? (a b c d : Char) : Option Nat := do
  let a ← hexValue? a
  let b ← hexValue? b
  let c ← hexValue? c
  let d ← hexValue? d
  some (a * 4096 + b * 256 + c * 16 + d)

def shortEscape? (c : Char) : Option Char :=
  if c = '"' then some '"'
  else if c = '\\' then some '\\'
  else if c = '/' then some '/'
  else if c = 'n' then some '\n'
  else if c = 't' then some '\t'
  else if c = 'r' then some '\r'
  else if c = 'b' then some '\x08'
  else if c = 'f' then some '\x0C'
  else none

inductive Element where
  | char (c : Char)
  | unit (n : Nat)
deriving DecidableEq

def stringBody : List Char → Option (List Element × List Char)
  | [] => none
  | '"' :: rest => some ([], rest)
  | '\\' :: 'u' :: a :: b :: c :: d :: rest => do
    let n ← hexUnit? a b c d
    let (elements, rest) ← stringBody rest
    some (.unit n :: elements, rest)
  | '\\' :: e :: rest => do
    let c ← shortEscape? e
    let (elements, rest) ← stringBody rest
    some (.char c :: elements, rest)
  | c :: rest =>
    if c.toNat < 0x20 ∨ c = '\\' then none
    else do
      let (elements, rest) ← stringBody rest
      some (.char c :: elements, rest)

def isHigh (n : Nat) : Bool := 0xD800 ≤ n && n < 0xDC00

def isLow (n : Nat) : Bool := 0xDC00 ≤ n && n < 0xE000

-- Joins the halves of surrogate pairs. A half on its own names no character.
def joinUnits : List Element → Option (List Char)
  | [] => some []
  | .char c :: rest => (joinUnits rest).map (c :: ·)
  | .unit h :: .unit l :: rest =>
    if isHigh h then
      if isLow l then
        (joinUnits rest).map (Char.ofNat (0x10000 + (h - 0xD800) * 1024 + (l - 0xDC00)) :: ·)
      else none
    else if isLow h then none
    else (joinUnits (.unit l :: rest)).map (Char.ofNat h :: ·)
  | .unit n :: rest =>
    if isHigh n || isLow n then none else (joinUnits rest).map (Char.ofNat n :: ·)

def stringToken (s : List Char) : Option (Text × List Char) := do
  let (elements, rest) ← stringBody s
  some ((joinUnits elements).map String.ofList, rest)

def digitsValue (ds : List Char) : Nat := Nat.ofDigitChars 10 ds 0

def exponent (s : List Char) : Option (Int × List Char) :=
  let (negative, s) := match s with
    | '-' :: r => (true, r)
    | '+' :: r => (false, r)
    | r => (false, r)
  let ds := s.takeWhile Char.isDigit
  if ds.isEmpty then none
  else
    let n : Int := digitsValue ds
    some (if negative then -n else n, s.dropWhile Char.isDigit)

def fraction (negative : Bool) (whole : List Char) (s : List Char) :
    Option (Number × List Char) := do
  let (part, rest) ← match s with
    | '.' :: r =>
      let ds := r.takeWhile Char.isDigit
      if ds.isEmpty then none else some (some ds, r.dropWhile Char.isDigit)
    | r => some (none, r)
  let (power, rest) ← match rest with
    | 'e' :: r => (exponent r).map fun (e, r) => (some e, r)
    | 'E' :: r => (exponent r).map fun (e, r) => (some e, r)
    | r => some (none, r)
  match part, power with
  | none, none => some (.whole negative (digitsValue whole), rest)
  | _, _ =>
    let ds := part.getD []
    some (.decimal negative (digitsValue (whole ++ ds)) (power.getD 0 - ds.length), rest)

def numberToken (s : List Char) : Option (Number × List Char) :=
  let (negative, s) := match s with
    | '-' :: r => (true, r)
    | r => (false, r)
  let ds := s.takeWhile Char.isDigit
  let rest := s.dropWhile Char.isDigit
  match ds with
  | [] => none
  | '0' :: _ :: _ => none
  | ds => fraction negative ds rest

mutual
def value : Nat → List Char → Option (Value × List Char)
  | 0, _ => none
  | n + 1, s =>
    match skip s with
    | '"' :: r => (stringToken r).map fun (t, r) => (.string t, r)
    | '[' :: r =>
      match skip r with
      | ']' :: r => some (.array [], r)
      | r => (items n r).map fun (vs, r) => (.array vs, r)
    | '{' :: r =>
      match skip r with
      | '}' :: r => some (.object [], r)
      | r => (members n r).map fun (ms, r) => (.object ms, r)
    | 'n' :: 'u' :: 'l' :: 'l' :: r => some (.null, r)
    | 't' :: 'r' :: 'u' :: 'e' :: r => some (.bool true, r)
    | 'f' :: 'a' :: 'l' :: 's' :: 'e' :: r => some (.bool false, r)
    | r => (numberToken r).map fun (k, r) => (.number k, r)

def items : Nat → List Char → Option (List Value × List Char)
  | 0, _ => none
  | n + 1, s => do
    let (v, r) ← value n s
    match skip r with
    | ']' :: r => some ([v], r)
    | ',' :: r => (items n r).map fun (vs, r) => (v :: vs, r)
    | _ => none

def members : Nat → List Char → Option (List (Text × Value) × List Char)
  | 0, _ => none
  | n + 1, s =>
    match skip s with
    | '"' :: r => do
      let (name, r) ← stringToken r
      match skip r with
      | ':' :: r =>
        let (v, r) ← value n r
        match skip r with
        | '}' :: r => some ([(name, v)], r)
        | ',' :: r => (members n r).map fun (ms, r) => ((name, v) :: ms, r)
        | _ => none
      | _ => none
    | _ => none
end

def parse (s : List Char) : Option Value :=
  match value (s.length + 1) s with
  | some (v, rest) => if (skip rest).isEmpty then some v else none
  | none => none

def ofText? (s : String) : Option Value := parse s.toList

-- Octets that are no UTF-8 may stand in a string that is not read, as the half of a
-- surrogate pair may, and nowhere else. So they count as such a half, after a letter that
-- goes on with no escape and no token.
def illFormed : List Char := "x\\udc00".toList

def charsOf (bytes : Bytes) : List Char :=
  (Utf8.scan bytes).flatMap fun read => (read.map fun c => [c]).getD illFormed

def ofBytes? (bytes : Bytes) : Option Value := parse (charsOf bytes)

-- What is said of octets that cannot be read as what they should be.
abbrev Words := String → Bytes → String

def wordless : Words := fun _ _ => ""

end ControlPlane.Json
