import ControlPlane.Event
import ControlPlane.Http.Chunked
import ControlPlane.Http.Message
-- The response that carries a stream of events: a head, then one chunk for each event.
namespace ControlPlane.EventStream

def head : String :=
  "HTTP/1.1 200 OK\r\nContent-Type: " ++ Http.linesType
    ++ "\r\nTransfer-Encoding: chunked\r\nConnection: close\r\n\r\n"

def parts (events : List Event) : List Bytes :=
  bytesOf head :: events.map (fun e => Chunked.chunk e.encode) ++ [Chunked.lastChunk]

structure Written where
  bytes : Bytes
  flushed : List Nat
  result : Except String Unit

-- Writes parts behind what was sent already. A client that is gone takes no more than
-- there is room for.
def writeParts (room : Option Nat) (sent : Nat) : List Bytes → Written
  | [] => ⟨[], [], .ok ()⟩
  | part :: rest =>
    if room.any (· < sent + part.length) then
      ⟨part.take (room.getD 0 - sent), [], .error "client gone"⟩
    else
      let after := writeParts room (sent + part.length) rest
      ⟨part ++ after.bytes, (sent + part.length) :: after.flushed, after.result⟩

def write (room : Option Nat) (events : List Event) : Written := writeParts room 0 (parts events)

end ControlPlane.EventStream
