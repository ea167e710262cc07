import ControlPlane.Text.Utf8
-- Where output goes. A sink cannot interrupt for ever: with each interruption its
-- patience falls.
namespace ControlPlane

inductive Reply where
  | took (n : Nat)
  | interrupted
  | failed (detail : String)
deriving DecidableEq

structure Sink where
  write : Nat → Bytes → Bytes → Reply
  flush : Nat → Bytes → Except String Unit
  patience : Nat → Bytes → Bytes → Nat
  patience_lt : ∀ writes held data, write writes held data = .interrupted →
    patience (writes + 1) held data < patience writes held data

-- A sink in use: how often it was written to, and what it holds.
structure Filling where
  sink : Sink
  writes : Nat
  held : Bytes

namespace Filling

def ofSink (sink : Sink) : Filling := ⟨sink, 0, []⟩

def again (filling : Filling) : Filling := { filling with writes := filling.writes + 1 }

-- Writes all data, in as many writes as it takes. A write that takes nothing ends it.
def writeAll (filling : Filling) : Bytes → Except String Unit × Filling
  | [] => (.ok (), filling)
  | b :: rest =>
    match _ : filling.sink.write filling.writes filling.held (b :: rest) with
    | .interrupted => filling.again.writeAll (b :: rest)
    | .took 0 => (.error "failed to write whole buffer", filling.again)
    | .took (n + 1) =>
      writeAll ⟨filling.sink, filling.writes + 1, filling.held ++ b :: rest.take n⟩ (rest.drop n)
    | .failed detail => (.error detail, filling.again)
termination_by data => (data.length, filling.sink.patience filling.writes filling.held data)
decreasing_by
  · exact Prod.Lex.right _ (filling.sink.patience_lt _ _ _ ‹_›)
  · exact Prod.Lex.left _ _ (by simp only [List.length_drop, List.length_cons]; omega)

def flush (filling : Filling) : Except String Unit :=
  filling.sink.flush filling.writes filling.held

end Filling

abbrev Outlet := Option Filling

namespace Outlet

def writeAll (outlet : Outlet) (data : Bytes) : Except String Unit × Outlet :=
  match outlet with
  | none => (.ok (), none)
  | some filling => ((filling.writeAll data).1, some (filling.writeAll data).2)

def flush (outlet : Outlet) : Except String Unit :=
  match outlet with
  | none => .ok ()
  | some filling => filling.flush

def held (outlet : Outlet) : Bytes :=
  match outlet with
  | none => []
  | some filling => filling.held

end Outlet

-- A sink with limits. Behind `limit` octets every write fails, behind `stall` octets
-- writes take nothing, `chunk` bounds what one write takes, and every other write is
-- interrupted if `interrupts` is set, the first included.
structure Limits where
  limit : Option Nat
  stall : Option Nat
  chunk : Option Nat
  interrupts : Bool
  flushFault : Option String

namespace Limits

def none : Limits := ⟨.none, .none, .none, false, .none⟩

def room (bound : Option Nat) (held n : Nat) : Nat :=
  match bound with
  | some b => min n (b - held)
  | .none => n

def reply (l : Limits) (held n : Nat) : Reply :=
  if l.limit.any (· ≤ held) then .failed "sink closed"
  else .took (room l.chunk 0 (room l.stall held (room l.limit held n)))

def write (l : Limits) (writes : Nat) (held data : Bytes) : Reply :=
  if l.interrupts && writes % 2 == 0 then .interrupted else l.reply held.length data.length

theorem reply_ne_interrupted (l : Limits) (held n : Nat) : l.reply held n ≠ .interrupted := by
  unfold reply
  split <;> simp

def sink (l : Limits) : Sink where
  write := l.write
  flush := fun _ _ =>
    match l.flushFault with
    | some detail => .error detail
    | .none => .ok ()
  patience := fun writes _ _ => (writes + 1) % 2
  patience_lt := by
    intro writes held data interrupted
    unfold write at interrupted
    split at interrupted
    · rename_i even
      simp only [Bool.and_eq_true, beq_iff_eq] at even
      omega
    · exact absurd interrupted (reply_ne_interrupted _ _ _)

end Limits

def Sink.buffer : Sink := Limits.none.sink

end ControlPlane
