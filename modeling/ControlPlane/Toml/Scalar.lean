import ControlPlane.Json.Value
import ControlPlane.Toml.Token
-- Numbers, truth values, dates and times. An infinity or a NaN stands as a truth value,
-- which no field of a description takes.
namespace ControlPlane.Toml

def isDelimiter (c : Char) : Bool :=
  c == ' ' || c == '\t' || c == '\n' || c == '\r' || c == ',' || c == ']' || c == '}' || c == '#'

def digitGroups (isDigit : Char → Bool) : List Char → Bool
  | [] => false
  | [d] => isDigit d
  | d :: '_' :: rest => isDigit d && digitGroups isDigit rest
  | d :: rest => isDigit d && digitGroups isDigit rest

def groupsValue (base : Nat) (ds : List Char) : Nat :=
  ds.foldl (fun n d => match hexValue? d with | some v => n * base + v | none => n) 0

def isOctal (c : Char) : Bool := '0' ≤ c && c ≤ '7'

def isBinary (c : Char) : Bool := c == '0' || c == '1'

def isDecimal (c : Char) : Bool := c.isDigit

def plainDigits (ds : List Char) : Bool :=
  digitGroups isDecimal ds && (ds.length == 1 || ds.head? != some '0')

def inRange (negative : Bool) (n : Nat) : Bool :=
  if negative then n ≤ 9223372036854775808 else n < 9223372036854775808

def splitSign : List Char → Option Bool × List Char
  | '+' :: rest => (some false, rest)
  | '-' :: rest => (some true, rest)
  | s => (none, s)

def prefixed (base : Nat) (isDigit : Char → Bool) (ds : List Char) : Option Int :=
  if digitGroups isDigit ds ∧ inRange false (groupsValue base ds) then
    some (groupsValue base ds)
  else none

def integer? (token : List Char) : Option Int :=
  match token with
  | '0' :: 'x' :: ds => prefixed 16 (fun c => (hexValue? c).isSome) ds
  | '0' :: 'o' :: ds => prefixed 8 isOctal ds
  | '0' :: 'b' :: ds => prefixed 2 isBinary ds
  | _ =>
    let (sign, ds) := splitSign token
    let negative := sign.getD false
    let n := groupsValue 10 ds
    if plainDigits ds ∧ inRange negative n then some (if negative then -(n : Int) else n)
    else none

def exponent? (s : List Char) : Option Int :=
  let (sign, ds) := splitSign s
  if digitGroups isDecimal ds then
    let n := groupsValue 10 ds
    some (if sign.getD false then -(n : Int) else n)
  else none

def float? (token : List Char) : Option Json.Number := do
  let (sign, s) := splitSign token
  let isMark := fun c => c == '.' || c == 'e' || c == 'E'
  let whole := s.takeWhile (!isMark ·)
  if ¬ plainDigits whole then none
  else
    let (part, rest) ← match s.dropWhile (!isMark ·) with
      | '.' :: r =>
        let part := r.takeWhile (!isMark ·)
        if digitGroups isDecimal part then some (part, r.dropWhile (!isMark ·)) else none
      | r => some ([], r)
    let power ← match rest with
      | 'e' :: r => exponent? r
      | 'E' :: r => exponent? r
      | [] => if part.isEmpty then none else some 0
      | _ => none
    let places := (part.filter Char.isDigit).length
    let n : Json.Number :=
      .decimal (sign.getD false) (groupsValue 10 (whole ++ part)) (power - places)
    if n.isFinite then some n else none

def isSpecialFloat (token : List Char) : Bool :=
  let (_, s) := splitSign token
  s == "inf".toList || s == "nan".toList

def decimals? (ds : List Char) : Option Nat :=
  if ds.all Char.isDigit then some (Nat.ofDigitChars 10 ds 0) else none

def daysIn (year month : Nat) : Nat :=
  if month = 2 then
    if year % 4 = 0 ∧ (year % 100 ≠ 0 ∨ year % 400 = 0) then 29 else 28
  else if month = 4 ∨ month = 6 ∨ month = 9 ∨ month = 11 then 30
  else 31

def date? : List Char → Option (List Char × List Char)
  | a :: b :: c :: d :: '-' :: e :: f :: '-' :: g :: h :: rest => do
    let year ← decimals? [a, b, c, d]
    let month ← decimals? [e, f]
    let day ← decimals? [g, h]
    if 1 ≤ month ∧ month ≤ 12 ∧ 1 ≤ day ∧ day ≤ daysIn year month then
      some ([a, b, c, d, '-', e, f, '-', g, h], rest)
    else none
  | _ => none

def fractionText (ds : List Char) : List Char :=
  let kept := ((ds.take 9).reverse.dropWhile (· == '0')).reverse
  if kept.isEmpty then [] else '.' :: kept

def time? : List Char → Option (List Char × List Char)
  | a :: b :: ':' :: c :: d :: ':' :: e :: f :: rest => do
    let hour ← decimals? [a, b]
    let minute ← decimals? [c, d]
    let second ← decimals? [e, f]
    if hour ≤ 23 ∧ minute ≤ 59 ∧ second ≤ 60 then
      let text := [a, b, ':', c, d, ':', e, f]
      match rest with
      | '.' :: r =>
        let ds := r.takeWhile Char.isDigit
        if ds.isEmpty then none
        else some (text ++ fractionText ds, r.dropWhile Char.isDigit)
      | r => some (text, r)
    else none
  | _ => none

def offset? : List Char → Option (List Char)
  | [] => some []
  | ['Z'] => some ['Z']
  | ['z'] => some ['Z']
  | [s, a, b, ':', c, d] => do
    let hour ← decimals? [a, b]
    let minute ← decimals? [c, d]
    if (s = '+' ∨ s = '-') ∧ hour ≤ 23 ∧ minute ≤ 59 then
      some ((if hour = 0 ∧ minute = 0 then '+' else s) :: [a, b, ':', c, d])
    else none
  | _ => none

def moment? (token : List Char) : Option (List Char) :=
  match date? token with
  | some (date, []) => some date
  | some (date, c :: rest) =>
    if c = 'T' ∨ c = 't' ∨ c = ' ' then do
      let (time, rest) ← time? rest
      let offset ← offset? rest
      some (date ++ 'T' :: (time ++ offset))
    else none
  | none =>
    match time? token with
    | some (time, []) => some time
    | _ => none

def momentRecord (text : List Char) : Json.Value :=
  .record [("$__toml_private_datetime", .ofString (String.ofList text))]

-- A date may be followed by one space and a time.
def scalarToken (s : List Char) : List Char × List Char :=
  let token := s.takeWhile (!isDelimiter ·)
  let rest := s.dropWhile (!isDelimiter ·)
  match rest with
  | ' ' :: d :: more =>
    if d.isDigit ∧ (date? token).any (·.2.isEmpty) then
      (token ++ ' ' :: (d :: more).takeWhile (!isDelimiter ·),
        (d :: more).dropWhile (!isDelimiter ·))
    else (token, rest)
  | _ => (token, rest)

def scalarValue? (token : List Char) : Option Json.Value :=
  if token = "true".toList then some (.bool true)
  else if token = "false".toList then some (.bool false)
  else if isSpecialFloat token then some (.bool false)
  else
    match moment? token with
    | some text => some (momentRecord text)
    | none =>
      match integer? token with
      | some i => some (.ofInt i)
      | none => (float? token).map .number

end ControlPlane.Toml
