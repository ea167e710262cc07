import ControlPlane.Json.Value
import ControlPlane.Text.Utf8
-- The compact written form of a document: no blanks, members in their order, and in
-- strings an escape for the quote, the backslash and the characters below the space.
namespace ControlPlane.Json

def hexDigit (n : Nat) : Char :=
  if n < 10 then Char.ofNat (48 + n) else Char.ofNat (87 + n)

def escapeChar (c : Char) : List Char :=
  if c = '"' then ['\\', '"']
  else if c = '\\' then ['\\', '\\']
  else if c = '\n' then ['\\', 'n']
  else if c = '\t' then ['\\', 't']
  else if c = '\r' then ['\\', 'r']
  else if c = '\x08' then ['\\', 'b']
  else if c = '\x0C' then ['\\', 'f']
  else if c.toNat < 0x20 then
    ['\\', 'u', '0', '0', hexDigit (c.toNat / 16), hexDigit (c.toNat % 16)]
  else [c]

-- A string token. One that names no text is written as the half of a surrogate pair.
def quote : Text → List Char
  | some s => '"' :: (s.toList.flatMap escapeChar ++ ['"'])
  | none => "\"\\ud800\"".toList

def digits (n : Nat) : List Char := Nat.toDigits 10 n

def Number.print : Number → List Char
  | .whole negative n => (if negative then ['-'] else []) ++ digits n
  | .decimal negative m e =>
    (if negative then ['-'] else []) ++ digits m ++ 'e' ::
      ((if e < 0 then ['-'] else []) ++ digits e.natAbs)

mutual
def Value.print : Value → List Char
  | .null => "null".toList
  | .bool true => "true".toList
  | .bool false => "false".toList
  | .number n => n.print
  | .string t => quote t
  | .array items => '[' :: printItems items
  | .object members => '{' :: printMembers members

def printItems : List Value → List Char
  | [] => [']']
  | v :: rest => v.print ++ printMoreItems rest

def printMoreItems : List Value → List Char
  | [] => [']']
  | v :: rest => ',' :: (v.print ++ printMoreItems rest)

def printMembers : List (Text × Value) → List Char
  | [] => ['}']
  | (name, v) :: rest => quote name ++ ':' :: (v.print ++ printMoreMembers rest)

def printMoreMembers : List (Text × Value) → List Char
  | [] => ['}']
  | (name, v) :: rest => ',' :: (quote name ++ ':' :: (v.print ++ printMoreMembers rest))
end

def Value.text (v : Value) : String := String.ofList v.print

def Value.bytes (v : Value) : Bytes := Utf8.encode v.print

end ControlPlane.Json
