-- The tokens of TOML text: blanks, line ends, comments, the four kinds of strings and
-- keys.
namespace ControlPlane.Toml

def isInline (c : Char) : Bool := c == ' ' || c == '\t'

def isControl (c : Char) : Bool := (c.toNat < 0x20 && c != '\t') || c.toNat == 0x7F

def skipInline (s : List Char) : List Char := s.dropWhile isInline

def skipLines (inComment : Bool) : List Char → Option (List Char)
  | [] => some []
  | '\n' :: rest => skipLines false rest
  | '\r' :: '\n' :: rest => skipLines false rest
  | c :: rest =>
    if inComment then if isControl c then none else skipLines true rest
    else if isInline c then skipLines false rest
    else if c = '#' then skipLines true rest
    else some (c :: rest)

def endLine (inComment : Bool) : List Char → Option (List Char)
  | [] => some []
  | '\n' :: rest => some rest
  | '\r' :: '\n' :: rest => some rest
  | c :: rest =>
    if inComment then if isControl c then none else endLine true rest
    else if isInline c then endLine false rest
    else if c = '#' then endLine true rest
    else none

def hexValue? (c : Char) : Option Nat :=
  let n := c.toNat
  if 48 ≤ n ∧ n ≤ 57 then some (n - 48)
  else if 97 ≤ n ∧ n ≤ 102 then some (n - 87)
  else if 65 ≤ n ∧ n ≤ 70 then some (n - 55)
  else none

def scalar? (ds : List Char) : Option Char := do
  let values ← ds.mapM hexValue?
  let n := values.foldl (fun n d => n * 16 + d) 0
  if n < 0xD800 ∨ 0xDFFF < n ∧ n < 0x110000 then some (Char.ofNat n) else none

def shortEscape? (c : Char) : Option Char :=
  if c = 'b' then some '\x08'
  else if c = 't' then some '\t'
  else if c = 'n' then some '\n'
  else if c = 'f' then some '\x0C'
  else if c = 'r' then some '\r'
  else if c = '"' then some '"'
  else if c = '\\' then some '\\'
  else none

abbrev Scanned := Option (List Char × List Char)

def Scanned.cons (c : Char) (s : Scanned) : Scanned := s.map fun (cs, rest) => (c :: cs, rest)

def basicString : List Char → Scanned
  | [] => none
  | '"' :: rest => some ([], rest)
  | '\\' :: 'u' :: a :: b :: c :: d :: rest =>
    (scalar? [a, b, c, d]).bind fun x => Scanned.cons x (basicString rest)
  | '\\' :: 'U' :: a :: b :: c :: d :: e :: f :: g :: h :: rest =>
    (scalar? [a, b, c, d, e, f, g, h]).bind fun x => Scanned.cons x (basicString rest)
  | '\\' :: e :: rest => (shortEscape? e).bind fun x => Scanned.cons x (basicString rest)
  | c :: rest => if isControl c ∨ c = '\\' then none else Scanned.cons c (basicString rest)

def literalString : List Char → Scanned
  | [] => none
  | '\'' :: rest => some ([], rest)
  | c :: rest => if isControl c then none else Scanned.cons c (literalString rest)

-- Behind three closing quotes one or two more belong to the text.
def closingQuotes (quote : Char) : List Char → List Char × List Char
  | a :: b :: rest =>
    if a = quote then if b = quote then ([a, b], rest) else ([a], b :: rest)
    else ([], a :: b :: rest)
  | [a] => if a = quote then ([a], []) else ([], [a])
  | [] => ([], [])

-- Where the reader of a multi-line string stands: in the text, or behind a backslash that
-- joins lines, before or after the first line end.
inductive Joining where
  | no
  | begun
  | underWay

def multiLineBasic (joining : Joining) : List Char → Scanned
  | [] => none
  | '"' :: '"' :: '"' :: rest =>
    match joining with
    | .begun => none
    | _ => some (closingQuotes '"' rest)
  | '\r' :: '\n' :: rest =>
    match joining with
    | .no => Scanned.cons '\n' (multiLineBasic .no rest)
    | _ => multiLineBasic .underWay rest
  | '\n' :: rest =>
    match joining with
    | .no => Scanned.cons '\n' (multiLineBasic .no rest)
    | _ => multiLineBasic .underWay rest
  | '\\' :: 'u' :: a :: b :: c :: d :: rest =>
    match joining with
    | .begun => none
    | _ => (scalar? [a, b, c, d]).bind fun x => Scanned.cons x (multiLineBasic .no rest)
  | '\\' :: 'U' :: a :: b :: c :: d :: e :: f :: g :: h :: rest =>
    match joining with
    | .begun => none
    | _ =>
      (scalar? [a, b, c, d, e, f, g, h]).bind fun x => Scanned.cons x (multiLineBasic .no rest)
  | '\\' :: '\n' :: rest =>
    match joining with
    | .begun => none
    | _ => multiLineBasic .underWay rest
  | '\\' :: e :: rest =>
    match joining with
    | .begun => none
    | _ =>
      if isInline e ∨ e = '\r' then
        if e = '\r' ∧ rest.head? ≠ some '\n' then none else multiLineBasic .begun rest
      else (shortEscape? e).bind fun x => Scanned.cons x (multiLineBasic .no rest)
  | c :: rest =>
    match joining with
    | .no => if isControl c ∨ c = '\\' then none else Scanned.cons c (multiLineBasic .no rest)
    | .begun => if isInline c then multiLineBasic .begun rest else none
    | .underWay =>
      if isInline c then multiLineBasic .underWay rest
      else if isControl c ∨ c = '\\' then none
      else Scanned.cons c (multiLineBasic .no rest)

def multiLineLiteral : List Char → Scanned
  | [] => none
  | '\'' :: '\'' :: '\'' :: rest => some (closingQuotes '\'' rest)
  | '\r' :: '\n' :: rest => Scanned.cons '\n' (multiLineLiteral rest)
  | c :: rest =>
    if c ≠ '\n' ∧ isControl c then none else Scanned.cons c (multiLineLiteral rest)

def dropFirstLineEnd : List Char → List Char
  | '\n' :: rest => rest
  | '\r' :: '\n' :: rest => rest
  | s => s

def anyString : List Char → Scanned
  | '"' :: '"' :: '"' :: rest => multiLineBasic .no (dropFirstLineEnd rest)
  | '"' :: rest => basicString rest
  | '\'' :: '\'' :: '\'' :: rest => multiLineLiteral (dropFirstLineEnd rest)
  | '\'' :: rest => literalString rest
  | _ => none

def isBareKey (c : Char) : Bool := c.isAlphanum || c == '_' || c == '-'

def simpleKey : List Char → Scanned
  | '"' :: rest => basicString rest
  | '\'' :: rest => literalString rest
  | s =>
    let key := s.takeWhile isBareKey
    if key.isEmpty then none else some (key, s.dropWhile isBareKey)

def moreKeys : Nat → List Char → Option (List String × List Char)
  | 0, s => some ([], s)
  | n + 1, s =>
    match skipInline s with
    | '.' :: rest => do
      let (key, rest) ← simpleKey (skipInline rest)
      let (keys, rest) ← moreKeys n rest
      some (String.ofList key :: keys, rest)
    | _ => some ([], s)

def dottedKey (s : List Char) : Option (List String × List Char) := do
  let (key, rest) ← simpleKey (skipInline s)
  let (keys, rest) ← moreKeys rest.length rest
  if keys.length + 1 ≥ 80 then none
  else some (String.ofList key :: keys, skipInline rest)

end ControlPlane.Toml
