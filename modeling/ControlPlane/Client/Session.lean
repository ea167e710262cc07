import ControlPlane.Client.Handle
-- A build at work on any number of runtimes. A handle is with its owner, with a guard
-- that closes the runtime when it lets go of it, or gone.
namespace ControlPlane

inductive Holder where
  | owner
  | guard
deriving DecidableEq

structure Slot where
  handle : Handle
  holder : Option Holder
deriving DecidableEq

-- Handles are numbered in the order in which the runtimes were opened.
structure Session (σ : Type) where
  state : σ
  slots : List Slot

namespace Session

variable {σ : Type}

def start (state : σ) : Session σ := ⟨state, []⟩

def slot? (s : Session σ) (n : Nat) : Option Slot :=
  (s.slots[n]?).filter (·.holder.isSome)

def put (s : Session σ) (n : Nat) (slot : Slot) (state : σ) : Session σ :=
  ⟨state, s.slots.set n slot⟩

end Session

namespace Client

variable {σ : Type}

def openFor (c : Client σ) (holder : Holder) (config : RuntimeConfig) (s : Session σ) :
    Except ClientError Handle × Session σ :=
  match c.openRuntime config s.state with
  | (.error e, state) => (.error e, { s with state := state })
  | (.ok h, state) => (.ok h, ⟨state, s.slots ++ [⟨h, some holder⟩]⟩)

def performAt (c : Client σ) (n : Nat) (a : Action) (s : Session σ) :
    Option a.Answer × Session σ :=
  match s.slot? n with
  | none => (none, s)
  | some slot =>
    let done := c.perform a slot.handle s.state
    (some done.1, s.put n { slot with handle := done.2.1 } done.2.2)

-- Lets go of a handle. A guard closes its runtime then, and says nothing about it.
def dropAt (c : Client σ) (n : Nat) (s : Session σ) : Session σ :=
  match s.slot? n with
  | none => s
  | some slot =>
    match slot.holder with
    | some .guard =>
      let closed := c.closeOnce slot.handle s.state
      s.put n ⟨closed.2.1, none⟩ closed.2.2
    | _ => s.put n { slot with holder := none } s.state

def closeGuarded (c : Client σ) (n : Nat) (s : Session σ) :
    Option (Except ClientError Unit) × Session σ :=
  match s.slot? n with
  | none => (none, s)
  | some slot =>
    let closed := c.closeOnce slot.handle s.state
    (some closed.1, s.put n ⟨closed.2.1, none⟩ closed.2.2)

end Client

def Session.unguard {σ : Type} (n : Nat) (s : Session σ) : Option Unit × Session σ :=
  match s.slot? n with
  | none => (none, s)
  | some slot => (some (), s.put n { slot with holder := some .owner } s.state)

inductive Move where
  | openFor (holder : Holder) (config : RuntimeConfig)
  | perform (n : Nat) (action : Action)
  | dropHandle (n : Nat)
  | closeGuarded (n : Nat)
  | unguard (n : Nat)

namespace Client

variable {σ : Type}

def step (c : Client σ) (s : Session σ) : Move → Session σ
  | .openFor holder config => (c.openFor holder config s).2
  | .perform n action => (c.performAt n action s).2
  | .dropHandle n => c.dropAt n s
  | .closeGuarded n => (c.closeGuarded n s).2
  | .unguard n => (s.unguard n).2

def steps (c : Client σ) (s : Session σ) (moves : List Move) : Session σ := moves.foldl c.step s

end Client

end ControlPlane
