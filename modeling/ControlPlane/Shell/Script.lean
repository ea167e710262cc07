import ControlPlane.Executor.Host
-- Scripts of a small shell: pipelines of simple commands, joined by what the status of
-- the one before decides.
namespace ControlPlane.Shell

inductive Piece where
  | text (cs : List Char)
  | loose (cs : List Char)
  | output (script : String) (isQuoted : Bool)
  | value (name : String) (isQuoted : Bool)
  | size (name : String)
  | pid
  | status
deriving DecidableEq

abbrev Word := List Piece

inductive Redirect where
  | input (file : Word)
  | output (channel : Channel) (appends : Bool) (file : Word)
  | join (channel target : Channel)
deriving DecidableEq

structure Simple where
  settings : List (String × Word)
  words : List Word
  redirects : List Redirect
deriving DecidableEq

inductive Connector where
  | always
  | ifOk
  | ifFailed
deriving DecidableEq

abbrev Script := List (Connector × List Simple)

inductive Token where
  | word (w : Word)
  | sign (s : String)
deriving DecidableEq

inductive Mode where
  | plain
  | single
  | double
  | escape (inDouble : Bool)
  | dollar (inDouble : Bool)
  | name (inDouble : Bool) (read : List Char)
  | brace (inDouble : Bool) (read : List Char)
  | nested (inDouble : Bool) (depth : Nat) (read : List Char)
  | comment
  | sign (c : Char)

structure Lexer where
  mode : Mode
  word : Option Word
  tokens : List Token

namespace Lexer

def start : Lexer := ⟨.plain, none, []⟩

def base (inDouble : Bool) : Mode := if inDouble then .double else .plain

def addText (l : Lexer) (cs : List Char) : Lexer :=
  match l.word with
  | some (.text old :: rest) => { l with word := some (.text (old ++ cs) :: rest) }
  | w => { l with word := some (.text cs :: w.getD []) }

def addPiece (l : Lexer) (p : Piece) : Lexer := { l with word := some (p :: l.word.getD []) }

def flush (l : Lexer) : Lexer :=
  match l.word with
  | some w => { l with word := none, tokens := l.tokens ++ [.word w.reverse] }
  | none => l

def addSign (l : Lexer) (s : String) : Lexer :=
  { l.flush with mode := .plain, tokens := l.flush.tokens ++ [.sign s] }

def beginSign (l : Lexer) (c : Char) : Lexer :=
  if c = '>' ∧ l.word = some [.text ['2']] then { l with mode := .sign '2', word := none }
  else if c = '>' ∧ l.word = some [.text ['1']] then { l with mode := .sign '>', word := none }
  else { l.flush with mode := .sign c }

def isNameChar (c : Char) : Bool := c.isAlphanum || c == '_'

def plain (l : Lexer) (c : Char) : Lexer :=
  if c = '\'' then { l.addText [] with mode := .single }
  else if c = '"' then { l.addText [] with mode := .double }
  else if c = '\\' then { l with mode := .escape false }
  else if c = '$' then { l with mode := .dollar false }
  else if c = ' ' ∨ c = '\t' then { l.flush with mode := .plain }
  else if c = '\n' ∨ c = ';' then l.addSign ";"
  else if c = '&' ∨ c = '|' ∨ c = '<' ∨ c = '>' then l.beginSign c
  else if c = '#' ∧ l.word = none then { l with mode := .comment }
  else { l.addText [c] with mode := .plain }

def inside (l : Lexer) (inDouble : Bool) (c : Char) : Lexer :=
  if inDouble then
    if c = '"' then { l with mode := .plain }
    else if c = '\\' then { l with mode := .escape true }
    else if c = '$' then { l with mode := .dollar true }
    else { l.addText [c] with mode := .double }
  else l.plain c

def braced (read : List Char) (inDouble : Bool) : Piece :=
  match read with
  | '#' :: name => .size (String.ofList name)
  | name => .value (String.ofList name) inDouble

def afterSign (l : Lexer) (first c : Char) : Lexer :=
  if first = '&' ∧ c = '&' then l.addSign "&&"
  else if first = '|' ∧ c = '|' then l.addSign "||"
  else if first = '>' ∧ c = '>' then l.addSign ">>"
  else if first = '2' ∧ c = '>' then l.addSign "2>>"
  else if first = '>' ∧ c = '&' then l.addSign ">&"
  else if first = '2' ∧ c = '&' then l.addSign "2>&"
  else (l.addSign (if first = '2' then "2>" else String.singleton first)).plain c

def step (l : Lexer) (c : Char) : Lexer :=
  match l.mode with
  | .plain => l.plain c
  | .single => if c = '\'' then { l with mode := .plain } else l.addText [c]
  | .double => l.inside true c
  | .escape inDouble =>
    let kept := inDouble && !(['"', '\\', '$', '\n', '\x60'].contains c)
    { l.addText (if kept then ['\\', c] else if c = '\n' then [] else [c]) with
      mode := base inDouble }
  | .dollar inDouble =>
    if c = '\x7b' then { l with mode := .brace inDouble [] }
    else if c = '(' then { l with mode := .nested inDouble 0 [] }
    else if c = '$' then { l.addPiece .pid with mode := base inDouble }
    else if c = '#' then { l.addPiece (.value "#" inDouble) with mode := base inDouble }
    else if c = '?' then { l.addPiece .status with mode := base inDouble }
    else if isNameChar c then { l with mode := .name inDouble [c] }
    else { l.addText ['$'] with mode := base inDouble }.inside inDouble c
  | .name inDouble read =>
    if isNameChar c then { l with mode := .name inDouble (read ++ [c]) }
    else
      { l.addPiece (.value (String.ofList read) inDouble) with mode := base inDouble }.inside
        inDouble c
  | .brace inDouble read =>
    if c = '\x7d' then { l.addPiece (braced read inDouble) with mode := base inDouble }
    else { l with mode := .brace inDouble (read ++ [c]) }
  | .nested inDouble 0 read =>
    if c = ')' then
      { l.addPiece (.output (String.ofList read) inDouble) with mode := base inDouble }
    else { l with mode := .nested inDouble (if c = '(' then 1 else 0) (read ++ [c]) }
  | .nested inDouble (depth + 1) read =>
    let depth := if c = ')' then depth else if c = '(' then depth + 2 else depth + 1
    { l with mode := .nested inDouble depth (read ++ [c]) }
  | .comment => if c = '\n' then { l with mode := .plain } else l
  | .sign first => l.afterSign first c

def read (script : String) : List Token := ((script.toList ++ ['\n']).foldl step start).tokens

end Lexer

structure Builder where
  script : Script
  connector : Connector
  pipeline : List Simple
  simple : Simple
  awaiting : Option String

namespace Builder

def noCommand : Simple := ⟨[], [], []⟩

def start : Builder := ⟨[], .always, [], noCommand, none⟩

def addRedirect (b : Builder) (r : Redirect) : Builder :=
  { b with
    simple := { b.simple with redirects := b.simple.redirects ++ [r] }
    awaiting := none }

def setting? : Word → Option (String × Word)
  | .text cs :: rest =>
    let name := cs.takeWhile (· ≠ '=')
    match cs.dropWhile (· ≠ '=') with
    | [] => none
    | _ :: value =>
      if name.isEmpty || !name.all Lexer.isNameChar then none
      else some (String.ofList name, .text value :: rest)
  | _ => none

def channelOf (w : Word) : Channel := if w = [.text ['2']] then .stderr else .stdout

def addWord (b : Builder) (w : Word) : Builder :=
  match b.awaiting with
  | some "<" => b.addRedirect (.input w)
  | some ">" => b.addRedirect (.output .stdout false w)
  | some ">>" => b.addRedirect (.output .stdout true w)
  | some "2>" => b.addRedirect (.output .stderr false w)
  | some "2>>" => b.addRedirect (.output .stderr true w)
  | some ">&" => b.addRedirect (.join .stdout (channelOf w))
  | some _ => b.addRedirect (.join .stderr (channelOf w))
  | none =>
    match b.simple.words, setting? w with
    | [], some s => { b with simple := { b.simple with settings := b.simple.settings ++ [s] } }
    | words, _ => { b with simple := { b.simple with words := words ++ [w] } }

def endSimple (b : Builder) : Builder :=
  if b.simple = noCommand then b
  else { b with pipeline := b.pipeline ++ [b.simple], simple := noCommand }

def endPipeline (b : Builder) (next : Connector) : Builder :=
  let b := b.endSimple
  if b.pipeline.isEmpty then { b with connector := next }
  else
    { b with script := b.script ++ [(b.connector, b.pipeline)], pipeline := [], connector := next }

def add (b : Builder) : Token → Builder
  | .word w => b.addWord w
  | .sign ";" => b.endPipeline .always
  | .sign "&" => b.endPipeline .always
  | .sign "&&" => b.endPipeline .ifOk
  | .sign "||" => b.endPipeline .ifFailed
  | .sign "|" => b.endSimple
  | .sign s => { b with awaiting := some s }

end Builder

def Script.read (text : String) : Script :=
  (((Lexer.read text).foldl Builder.add .start).endPipeline .always).script

end ControlPlane.Shell
