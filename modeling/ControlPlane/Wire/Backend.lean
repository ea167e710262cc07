import ControlPlane.Json.Printer
import ControlPlane.Json.Record
import ControlPlane.RuntimeConfig
-- The backend part of an open request. The value is held back until its variant is known,
-- so all of it has to be plain text and finite numbers, and its nesting is limited.
namespace ControlPlane.Wire

-- Nesting that a value which is held back may reach, counted from the document's root.
def nestingLimit : Nat := 127

inductive BackendSpec where
  | host
  | docker (image : String) (pullStrategy : Option PullStrategy) (auth : Option RegistryAuth)
deriving DecidableEq

def authToJson : RegistryAuth → Json.Value
  | .basic username password =>
    .record [("basic",
      .record [("username", .ofString username), ("password", .ofString password)])]
  | .ecr region accessKeyId secretKey =>
    .record [("aws_ecr",
      .record [("region", .ofString region), ("aws_access_key_id", .ofString accessKeyId),
        ("aws_secret_key", .ofString secretKey)])]

def exactTexts (names : List String) (v : Json.Value) : Option (List String) := do
  let fields ← Json.readRecord .strict names v
  names.mapM fun name => fields.required name Json.text?

def authMember : String → Json.Value → Option RegistryAuth
  | "basic", v =>
    match exactTexts ["username", "password"] v with
    | some [username, password] => some (.basic username password)
    | _ => none
  | "aws_ecr", v =>
    match exactTexts ["region", "aws_access_key_id", "aws_secret_key"] v with
    | some [region, accessKeyId, secretKey] => some (.ecr region accessKeyId secretKey)
    | _ => none
  | _, _ => none

def authOfJson? (v : Json.Value) : Option RegistryAuth :=
  (Json.onlyMember? v).bind fun m => authMember m.1 m.2

def pullStrategyToJson (strategy : PullStrategy) : Json.Value := .ofString strategy.name

def pullStrategyOfJson? (v : Json.Value) : Option PullStrategy :=
  match v with
  | .string t => t.bind PullStrategy.ofName?
  | _ =>
    match Json.onlyMember? v with
    | some (name, .null) => PullStrategy.ofName? name
    | _ => none

-- In a value that was held back an empty object is as good as null.
def heldStrategyOfJson? (v : Json.Value) : Option PullStrategy :=
  match Json.onlyMember? v with
  | some (name, .object []) => PullStrategy.ofName? name
  | _ => pullStrategyOfJson? v

def optionalMember (name : String) (v : Option Json.Value) : List (String × Json.Value) :=
  match v with
  | some v => [(name, v)]
  | none => []

def BackendSpec.toJson : BackendSpec → Json.Value
  | .host => .record [("type", .ofString "host")]
  | .docker image pullStrategy auth =>
    .record ([("type", .ofString "docker"), ("image", .ofString image)]
      ++ optionalMember "pull_strategy" (pullStrategy.map pullStrategyToJson)
      ++ optionalMember "auth" (auth.map authToJson))

def dockerFields : List String := ["image", "pull_strategy", "auth"]

def dockerOfFields (fields : Json.Fields) : Option BackendSpec := do
  let image ← fields.required "image" Json.text?
  let pullStrategy ← fields.optional "pull_strategy" heldStrategyOfJson?
  let auth ← fields.optional "auth" authOfJson?
  some (.docker image pullStrategy auth)

-- The variant of the given name from the rest of the object. The host takes any members.
def BackendSpec.ofMembers (variant : String) (rest : List (Json.Text × Json.Value)) :
    Option BackendSpec :=
  if variant = "host" then some .host
  else if variant = "docker" then
    (Json.readRecord .strict dockerFields (.object rest)).bind dockerOfFields
  else none

def BackendSpec.ofItems (variant : String) (rest : List Json.Value) : Option BackendSpec :=
  if variant = "host" then if rest.isEmpty then some .host else none
  else if variant = "docker" then
    (Json.readRecord .strict dockerFields (.array rest)).bind dockerOfFields
  else none

def BackendSpec.ofJson? (outer : Nat) (v : Json.Value) : Option BackendSpec :=
  if ¬ v.isPlain ∨ outer + v.depth > nestingLimit then none
  else
    match v with
    | .object members =>
      let (tags, rest) := members.partition fun m => m.1 = some "type"
      match tags with
      | [(_, .string (some variant))] => ofMembers variant rest
      | _ => none
    | .array (.string (some variant) :: rest) => ofItems variant rest
    | _ => none

end ControlPlane.Wire
