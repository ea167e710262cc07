-- Path patterns. A slash is matched by a literal slash or by `**` alone.
namespace ControlPlane

inductive PatternFault where
  | wildcards
  | recursion
  | range
deriving DecidableEq

def PatternFault.text : PatternFault → String
  | .wildcards => "wildcards are either regular `*` or recursive `**`"
  | .recursion => "recursive wildcards must form a single path component"
  | .range => "invalid range pattern"

-- Positions count characters.
structure PatternError where
  position : Nat
  fault : PatternFault
deriving DecidableEq

def PatternError.message (e : PatternError) : String :=
  "Pattern syntax error near position " ++ Nat.repr e.position ++ ": " ++ e.fault.text

inductive ClassItem where
  | single (c : Char)
  | span (low high : Char)
deriving DecidableEq

def ClassItem.holds (c : Char) : ClassItem → Bool
  | .single d => c == d
  | .span low high => low ≤ c && c ≤ high

def classItems : List Char → List ClassItem
  | low :: '-' :: high :: rest => .span low high :: classItems rest
  | c :: rest => .single c :: classItems rest
  | [] => []

inductive PatternToken where
  | char (c : Char)
  | any
  | star
  | recursive
  | within (items : List ClassItem)
  | except (items : List ClassItem)
deriving DecidableEq

-- Where the reader stands: in plain text, or in a set that began at a position, with the
-- characters read of it back to front.
inductive PatternMode where
  | plain
  | set (negated : Bool) (start : Nat) (read : List Char)

-- Reads a pattern from a position. `first` tells whether a component begins there.
def readPattern (mode : PatternMode) (position : Nat) (first : Bool) :
    List Char → Except PatternError (List PatternToken)
  | [] =>
    match mode with
    | .plain => .ok []
    | .set _ start _ => .error ⟨start, .range⟩
  | c :: rest =>
    match mode with
    | .set negated start read =>
      if c = ']' then
        let items := classItems read.reverse
        (readPattern .plain (position + 1) false rest).map
          ((if negated then .except items else .within items) :: ·)
      else readPattern (.set negated start (c :: read)) (position + 1) false rest
    | .plain =>
      if c = '?' then (readPattern .plain (position + 1) false rest).map (.any :: ·)
      else if c = '*' then
        match rest with
        | '*' :: '*' :: _ => .error ⟨position + 2, .wildcards⟩
        | '*' :: after =>
          if first then
            match after with
            | [] => .ok [.recursive]
            | '/' :: rest => (readPattern .plain (position + 3) true rest).map (.recursive :: ·)
            | _ => .error ⟨position + 2, .recursion⟩
          else .error ⟨position - 1, .recursion⟩
        | rest => (readPattern .plain (position + 1) false rest).map (.star :: ·)
      else if c = '[' then
        match rest with
        | '!' :: d :: rest => readPattern (.set true position [d]) (position + 3) false rest
        | ['!'] => .error ⟨position, .range⟩
        | d :: rest => readPattern (.set false position [d]) (position + 2) false rest
        | [] => .error ⟨position, .range⟩
      else (readPattern .plain (position + 1) (c == '/') rest).map (.char c :: ·)

structure Pattern where
  tokens : List PatternToken
deriving DecidableEq

namespace Pattern

def read (text : String) : Except PatternError Pattern :=
  (readPattern .plain 0 true text.toList).map Pattern.mk

def starRests : List Char → List (List Char)
  | [] => [[]]
  | c :: rest => (c :: rest) :: if c = '/' then [] else starRests rest

def afterSlashes : List Char → List (List Char)
  | [] => []
  | c :: rest => if c = '/' then rest :: afterSlashes rest else afterSlashes rest

-- What may remain behind whole components: everything, what follows a slash, or nothing.
def recursiveRests (s : List Char) : List (List Char) := s :: afterSlashes s ++ [[]]

def matchTokens : List PatternToken → List Char → Bool
  | [], s => s.isEmpty
  | .star :: tokens, s => (starRests s).any (matchTokens tokens)
  | .recursive :: tokens, s => (recursiveRests s).any (matchTokens tokens)
  | .char d :: tokens, c :: rest => c == d && matchTokens tokens rest
  | .any :: tokens, c :: rest => c != '/' && matchTokens tokens rest
  | .within items :: tokens, c :: rest =>
    c != '/' && items.any (·.holds c) && matchTokens tokens rest
  | .except items :: tokens, c :: rest =>
    c != '/' && !items.any (·.holds c) && matchTokens tokens rest
  | _, [] => false

def isMatch (p : Pattern) (text : String) : Bool := matchTokens p.tokens text.toList

def literal? (p : Pattern) : Option (List Char) :=
  p.tokens.mapM fun
    | .char c => some c
    | _ => none

def isRecursive (p : Pattern) : Bool := p.tokens.contains .recursive

def startsWithDot (p : Pattern) : Bool := p.tokens.head? == some (.char '.')

end Pattern

end ControlPlane
