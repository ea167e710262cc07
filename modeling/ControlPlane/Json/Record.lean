import ControlPlane.Json.Value
-- Records in documents: objects with members of known names, or arrays of the same fields
-- in order.
namespace ControlPlane.Json

-- What is done with members of other names, and with items past the last field.
structure Leftovers where
  refuseMembers : Bool
  refuseItems : Bool

def Leftovers.lenient : Leftovers := ⟨false, true⟩

def Leftovers.strict : Leftovers := ⟨true, true⟩

abbrev Fields := List (String × Value)

def namedMembers (members : List (Text × Value)) : Option Fields :=
  members.mapM fun m => m.1.map fun name => (name, m.2)

def readRecord (leftovers : Leftovers) (names : List String) : Value → Option Fields
  | .object members => do
    let named ← namedMembers members
    let known := named.filter fun m => names.contains m.1
    if ¬ (known.map (·.1)).Nodup then none
    else if leftovers.refuseMembers ∧ known.length ≠ named.length then none
    else some known
  | .array items =>
    if leftovers.refuseItems ∧ items.length > names.length then none
    else some (names.zip items)
  | _ => none

def text? : Value → Option String
  | .string t => t
  | _ => none

def texts? : Value → Option (List String)
  | .array items => items.mapM text?
  | _ => none

def textMap? : Value → Option (List (String × String))
  | .object members => do
    let named ← namedMembers members
    named.mapM fun m => (text? m.2).map fun t => (m.1, t)
  | _ => none

def int? : Value → Option Int
  | .number n => n.toInt?
  | _ => none

def natBelow? (bound : Nat) (v : Value) : Option Nat := do
  let i ← int? v
  if 0 ≤ i ∧ i < bound then some i.toNat else none

def Fields.required {α : Type} (fields : Fields) (name : String) (read : Value → Option α) :
    Option α :=
  (fields.lookup name).bind read

def Fields.withDefault {α : Type} (fields : Fields) (name : String) (default : α)
    (read : Value → Option α) : Option α :=
  match fields.lookup name with
  | none => some default
  | some v => read v

def Fields.optional {α : Type} (fields : Fields) (name : String) (read : Value → Option α) :
    Option (Option α) :=
  match fields.lookup name with
  | none => some none
  | some .null => some none
  | some v => (read v).map some

def onlyMember? : Value → Option (String × Value)
  | .object [(some name, v)] => some (name, v)
  | _ => none

end ControlPlane.Json
