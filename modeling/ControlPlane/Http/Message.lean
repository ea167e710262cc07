import ControlPlane.Text.Utf8
-- Requests and replies, as far as the control plane looks at them. A request has no body
-- if it cannot be read to its end. The body of a reply comes in pieces.
namespace ControlPlane.Http

structure Request where
  verb : String
  target : String
  headers : List (String × String)
  body : Option Bytes
deriving DecidableEq

structure Reply where
  status : Nat
  contentType : String
  body : List Bytes
deriving DecidableEq

def sameName (a b : String) : Bool := a.toList.map Char.toLower == b.toList.map Char.toLower

def Request.header? (r : Request) (name : String) : Option String :=
  (r.headers.find? fun h => sameName h.1 name).map (·.2)

def jsonType : String := "application/json"

def linesType : String := "application/x-ndjson"

end ControlPlane.Http
