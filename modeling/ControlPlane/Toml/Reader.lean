import ControlPlane.Manifest
import ControlPlane.Text.Utf8
import ControlPlane.Toml.Scalar
import ControlPlane.Toml.Table
-- Reading TOML text as a document, and a runtime description from it. Arrays may span
-- lines, tables in braces may not; values nest fewer than eighty levels deep.
namespace ControlPlane.Toml

mutual
def value : Nat → Nat → List Char → Option (Json.Value × List Char)
  | 0, _, _ => none
  | n + 1, depth, s =>
    match s with
    | '[' :: rest => if depth + 1 ≥ 80 then none else arrayItems n (depth + 1) [] rest
    | '{' :: rest =>
      if depth + 1 ≥ 80 then none
      else
        match skipInline rest with
        | '}' :: rest => some (.object [], rest)
        | rest => inlineMembers n (depth + 1) [] rest
    | '"' :: _ => (anyString s).map fun (t, rest) => (.ofString (String.ofList t), rest)
    | '\'' :: _ => (anyString s).map fun (t, rest) => (.ofString (String.ofList t), rest)
    | _ =>
      let (token, rest) := scalarToken s
      (scalarValue? token).map fun v => (v, rest)

def arrayItems : Nat → Nat → List Json.Value → List Char → Option (Json.Value × List Char)
  | 0, _, _, _ => none
  | n + 1, depth, read, s => do
    match ← skipLines false s with
    | ']' :: rest => some (.array read.reverse, rest)
    | s =>
      let (v, rest) ← value n depth s
      match ← skipLines false rest with
      | ']' :: rest => some (.array (v :: read).reverse, rest)
      | ',' :: rest => arrayItems n depth (v :: read) rest
      | _ => none

def inlineMembers : Nat → Nat → Entries → List Char → Option (Json.Value × List Char)
  | 0, _, _, _ => none
  | n + 1, depth, read, s => do
    let (keys, rest) ← dottedKey s
    match rest with
    | '=' :: rest =>
      let (v, rest) ← value n depth (skipInline rest)
      let (_, read) ← setDotted keys v .written read
      match skipInline rest with
      | '}' :: rest => some ((Node.table .written read).toJson, rest)
      | ',' :: rest => inlineMembers n depth read rest
      | _ => none
    | _ => none
end

def headerLine (d : Draft) (isRow : Bool) (s : List Char) : Option (Draft × List Char) := do
  let (path, rest) ← dottedKey s
  match isRow, rest with
  | false, ']' :: rest =>
    let rest ← endLine false rest
    (d.header false path).map fun d => (d, rest)
  | true, ']' :: ']' :: rest =>
    let rest ← endLine false rest
    (d.header true path).map fun d => (d, rest)
  | _, _ => none

def keyLine (d : Draft) (s : List Char) : Option (Draft × List Char) := do
  let (keys, rest) ← dottedKey s
  match rest with
  | '=' :: rest =>
    let s := skipInline rest
    let (v, rest) ← value (s.length + 1) 0 s
    let rest ← endLine false rest
    (d.set keys v).map fun d => (d, rest)
  | _ => none

def lines : Nat → Draft → List Char → Option Draft
  | 0, _, _ => none
  | n + 1, d, s => do
    match ← skipLines false s with
    | [] => some d
    | '[' :: '[' :: rest =>
      let (d, rest) ← headerLine d true rest
      lines n d rest
    | '[' :: rest =>
      let (d, rest) ← headerLine d false rest
      lines n d rest
    | s =>
      let (d, rest) ← keyLine d s
      lines n d rest

def parse (s : List Char) : Option Json.Value :=
  let s := if s.head? = some '\uFEFF' then s.tail else s
  (lines (s.length + 1) ⟨[], []⟩ s).map fun d => (Node.table .written d.root).toJson

end ControlPlane.Toml

namespace ControlPlane.Manifest

-- `words` says of a text why it is no manifest.
def ofToml (words : String → String) (text : String) : Except ConfigError Manifest :=
  match (Toml.parse text.toList).bind (read ⟨true, false⟩) with
  | some m => .ok m
  | none => .error (.notToml (words text))

def ofFile (words : String → String) : Except String Bytes → Except ConfigError Manifest
  | .error detail => .error (.unreadable detail)
  | .ok content =>
    match textOf? content with
    | some text => ofToml words text
    | none => .error (.unreadable "stream did not contain valid UTF-8")

end ControlPlane.Manifest
