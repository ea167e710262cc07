import ControlPlane.Client.Handle
-- Work on a runtime that is opened for it and closed at its end, however it ends. The
-- failure of the work itself is the one that is reported.
namespace ControlPlane

inductive Ending (α : Type) where
  | value (a : α)
  | failure (error : ClientError)
  | panic

-- Work on a handle: operations and looks at the handle, one after the other, each chosen
-- by what came before.
inductive Body (α : Type) where
  | ends (ending : Ending α)
  | act (action : Action) (next : action.Answer → Body α)
  | look (next : Handle → Body α)

structure Guarded (α : Type) where
  ending : Ending α
  handle : Option Handle

namespace Client

variable {σ α : Type}

def runBody (c : Client σ) : Body α → Handle → σ → Ending α × Handle × σ
  | .ends ending, h, state => (ending, h, state)
  | .act action next, h, state =>
    let done := c.perform action h state
    runBody c (next done.1) done.2.1 done.2.2
  | .look next, h, state => runBody c (next h) h state

def settleEnding (ending : Ending α) (closed : Except ClientError Unit) : Ending α :=
  match ending, closed with
  | .value _, .error e => .failure e
  | other, _ => other

def withRuntime (c : Client σ) (config : RuntimeConfig) (body : Body α) (state : σ) :
    Guarded α × σ :=
  match c.openRuntime config state with
  | (.error e, state) => (⟨.failure e, none⟩, state)
  | (.ok h, state) =>
    let ran := c.runBody body h state
    let closed := c.closeOnce ran.2.1 ran.2.2
    (⟨settleEnding ran.1 closed.1, some closed.2.1⟩, closed.2.2)

end Client

end ControlPlane
