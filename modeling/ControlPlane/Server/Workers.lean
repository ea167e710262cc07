import ControlPlane.Server.Registry
-- Commands and closings that run side by side. A command that was accepted waits for the
-- lock of its runtime and keeps it until its last event is out. Closing takes the record
-- away first and then waits for the lock.
namespace ControlPlane

structure Job where
  number : Nat
  runtime : RuntimeId
  opts : ExecOpts
deriving DecidableEq

-- A command that has the lock: the events its receiver got and those to come.
structure Running where
  job : Job
  sent : List Event
  pending : List Event

def Running.number (r : Running) : Nat := r.job.number

-- `issued` are the ids that were ever given to a runtime, `locked` those whose lock is taken.
-- A removed runtime is `closing` until its lock is free, then `shutting` while the backend
-- closes it, then `closed`. Receivers that went away are told by the number of their command.
structure Workers (β : Type) where
  registry : Registry β
  issued : List RuntimeId
  locked : List RuntimeId
  closing : List RuntimeId
  shutting : List RuntimeId
  closed : List RuntimeId
  accepted : Nat
  gone : List Nat
  waiting : List Job
  running : List Running
  streams : List (Job × List Event)

inductive WorkerStep where
  | opening (fresh : RuntimeId) (request : Wire.OpenRequest)
  | transfer (direction : Direction) (id : RuntimeId) (src : String) (opts : TransferOpts)
  | accept (request : Wire.ExecRequest)
  | leave (number : Nat)
  | begin (number : Nat)
  | send (number : Nat)
  | finish (number : Nat)
  | remove (id : RuntimeId)
  | removeAll
  | shut (id : RuntimeId)
  | closed (id : RuntimeId)

def takeFirst {α : Type} (test : α → Bool) : List α → Option (α × List α)
  | [] => none
  | a :: rest =>
    if test a then some (a, rest) else (takeFirst test rest).map fun (b, others) => (b, a :: others)

namespace Workers

variable {β : Type}

def start (state : β) : Workers β := ⟨.start state, [], [], [], [], [], 0, [], [], [], []⟩

def release (w : Workers β) (r : Running) (others : List Running) : Workers β :=
  { w with
    locked := w.locked.erase r.job.runtime
    running := others
    streams := w.streams ++ [(r.job, r.sent)] }

def advance (svc : Service β) (w : Workers β) : WorkerStep → Option (Workers β)
  | .opening fresh request =>
    if fresh ∈ w.issued then none
    else some { w with
      registry := (svc.openRuntime fresh request w.registry).2
      issued := fresh :: w.issued }
  | .transfer direction id src opts =>
    some { w with
      registry := { w.registry with
        state := (svc.backend.transfer direction id src opts w.registry.state).2 } }
  | .accept request =>
    match Service.accept request w.registry with
    | .error _ => none
    | .ok (id, opts) =>
      some { w with accepted := w.accepted + 1, waiting := w.waiting ++ [⟨w.accepted, id, opts⟩] }
  | .leave number =>
    if number < w.accepted then some { w with gone := number :: w.gone } else none
  | .begin number =>
    match takeFirst (·.number == number) w.waiting with
    | none => none
    | some (job, others) =>
      if job.runtime ∈ w.locked then none
      else
        let ran := svc.backend.exec job.runtime job.opts w.registry.state
        some { w with
          registry := { w.registry with state := ran.2 }
          locked := job.runtime :: w.locked
          waiting := others
          running := ⟨job, [], ran.1.stream⟩ :: w.running }
  | .send number =>
    match takeFirst (·.number == number) w.running with
    | none => none
    | some (r, others) =>
      match r.pending with
      | [] => none
      | event :: pending =>
        if number ∈ w.gone then some (w.release r others)
        else some { w with running := ⟨r.job, r.sent ++ [event], pending⟩ :: others }
  | .finish number =>
    match takeFirst (·.number == number) w.running with
    | none => none
    | some (r, others) => if r.pending.isEmpty then some (w.release r others) else none
  | .remove id =>
    if id ∈ w.registry.ids then
      some { w with
        registry := { w.registry with records := w.registry.records.erase id }
        closing := id :: w.closing }
    else none
  | .removeAll =>
    some { w with
      registry := { w.registry with records := [] }
      closing := w.registry.ids ++ w.closing }
  | .shut id =>
    if id ∈ w.closing ∧ id ∉ w.locked then
      some { w with
        locked := id :: w.locked
        closing := w.closing.erase id
        shutting := id :: w.shutting }
    else none
  | .closed id =>
    if id ∈ w.shutting then
      some { w with
        registry := { w.registry with state := (svc.backend.close id w.registry.state).2 }
        locked := w.locked.erase id
        shutting := w.shutting.erase id
        closed := id :: w.closed }
    else none

-- Makes the steps in order. What cannot be made is left out.
def run (svc : Service β) (steps : List WorkerStep) (w : Workers β) : Workers β :=
  steps.foldl (fun w step => (w.advance svc step).getD w) w

end Workers

end ControlPlane
