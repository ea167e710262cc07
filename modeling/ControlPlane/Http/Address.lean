-- Addresses that a server may listen on. A name stands for an address only if it is the
-- name of this machine.
namespace ControlPlane

inductive Host where
  | v4 (octets : List Nat)
  | v6 (groups : List Nat)
deriving DecidableEq

structure Address where
  host : Host
  number : Nat
deriving DecidableEq

namespace Address

def digitValue? (c : Char) : Option Nat :=
  if '0' ≤ c ∧ c ≤ '9' then some (c.toNat - 48)
  else if 'a' ≤ c ∧ c ≤ 'f' then some (c.toNat - 87)
  else if 'A' ≤ c ∧ c ≤ 'F' then some (c.toNat - 55)
  else none

def number? (base : Nat) (cs : List Char) : Option Nat :=
  if cs.isEmpty then none
  else
    cs.foldl (fun n c =>
      n.bind fun n => (digitValue? c).bind fun d => if d < base then some (n * base + d) else none)
      (some 0)

def below? (bound : Nat) (n : Option Nat) : Option Nat := n.filter (· < bound)

def octet? (cs : List Char) : Option Nat :=
  if cs.length > 3 ∨ (cs.length > 1 ∧ cs.head? = some '0') then none
  else below? 256 (number? 10 cs)

def v4? (cs : List Char) : Option (List Nat) :=
  let parts := cs.splitOn '.'
  if parts.length = 4 then parts.mapM octet? else none

def group? (cs : List Char) : Option Nat := if cs.length > 4 then none else number? 16 cs

-- Groups between colons. The last one may be an address of the older kind.
def groups? (cs : List Char) : Option (List Nat) :=
  if cs.isEmpty then some []
  else
    let parts := cs.splitOn ':'
    match (parts.getLast?).bind v4? with
    | some [a, b, c, d] => (parts.dropLast.mapM group?).map (· ++ [a * 256 + b, c * 256 + d])
    | _ => parts.mapM group?

def splitGap : List Char → Option (List Char × List Char)
  | ':' :: ':' :: rest => some ([], rest)
  | c :: rest => (splitGap rest).map fun (front, back) => (c :: front, back)
  | [] => none

def v6? (cs : List Char) : Option (List Nat) :=
  match splitGap cs with
  | none => (groups? cs).filter (·.length = 8)
  | some (front, back) =>
    match groups? front, groups? back with
    | some a, some b =>
      if a.length + b.length < 8 then some (a ++ List.replicate (8 - a.length - b.length) 0 ++ b)
      else none
    | _, _ => none

def splitLast (cs : List Char) : Option (List Char × List Char) :=
  let parts := cs.splitOn ':'
  match parts.dropLast with
  | [] => none
  | front => some ([':'].intercalate front, parts.getLast?.getD [])

def socketNumber? (cs : List Char) : Option Nat := below? 65536 (number? 10 cs)

def host? (cs : List Char) : Option Host :=
  if cs = "localhost".toList then some (.v4 [127, 0, 0, 1])
  else
    match v4? cs with
    | some octets => some (.v4 octets)
    | none =>
      if cs.head? = some '[' ∧ cs.getLast? = some ']' then (v6? cs.tail.dropLast).map .v6
      else none

def read? (text : String) : Option Address :=
  (splitLast text.toList).bind fun (host, number) =>
    (host? host).bind fun h => (socketNumber? number).map fun p => ⟨h, p⟩

def isLoopback (a : Address) : Bool :=
  match a.host with
  | .v4 octets => octets.head? == some 127
  | .v6 groups => groups == [0, 0, 0, 0, 0, 0, 0, 1]

def isUnspecified (a : Address) : Bool :=
  match a.host with
  | .v4 octets => octets.all (· == 0)
  | .v6 groups => groups.all (· == 0)

def isLocal (a : Address) : Bool := a.isLoopback || a.isUnspecified

end Address

structure BindError where
  address : String
deriving DecidableEq

def BindError.message (e : BindError) : String :=
  "failed to bind control plane on " ++ e.address ++ ": cannot listen there"

def bindAddress (text : String) : Except BindError Address :=
  match (Address.read? text).filter (·.isLocal) with
  | some a => .ok a
  | none => .error ⟨text⟩

end ControlPlane
