import ControlPlane.ConfigError
import ControlPlane.Metadata
import ControlPlane.Text.Blank
-- A single command to run in an open runtime, with its environment entries `KEY=value`.
namespace ControlPlane

def splitEntry (entry : String) : Option (String × String) :=
  let key := entry.toList.takeWhile (· ≠ '=')
  match entry.toList.dropWhile (· ≠ '=') with
  | [] => none
  | _ :: value => some (String.ofList key, String.ofList value)

structure ExecOpts where
  name : String
  args : List String
  env : List String
  tags : Tags
deriving DecidableEq

namespace ExecOpts

def ofName (name : String) : ExecOpts := ⟨name, [], [], .empty⟩

inductive Step where
  | arg (arg : String)
  | args (args : List String)
  | env (key value : String)
  | tag (name value : String)

def apply (opts : ExecOpts) : Step → ExecOpts
  | .arg arg => { opts with args := opts.args ++ [arg] }
  | .args args => { opts with args := opts.args ++ args }
  | .env key value => { opts with env := opts.env ++ [key ++ "=" ++ value] }
  | .tag name value => { opts with tags := opts.tags.insert name value }

def applyAll (opts : ExecOpts) (steps : List Step) : ExecOpts := steps.foldl apply opts

def entryIsValid (entry : String) : Bool :=
  match splitEntry entry with
  | some (key, _) => key ≠ ""
  | none => false

def check (opts : ExecOpts) : Except ConfigError Unit :=
  if isBlankText opts.name then .error .emptyCommand
  else
    match opts.env.find? fun entry => !entryIsValid entry with
    | some entry => .error (.invalidEnv entry)
    | none => .ok ()

-- The environment as keys and values. Entries without an equals sign are left out.
def envPairs (opts : ExecOpts) : List (String × String) := opts.env.filterMap splitEntry

def commandLine (opts : ExecOpts) : String :=
  if opts.args.isEmpty then opts.name else opts.name ++ " " ++ " ".intercalate opts.args

end ExecOpts

end ControlPlane
