import Choreography.Error

/-! What code outside the engine does while the engine waits for it: it takes time,
cancels cascades, looks for operations and calls them, and in the end returns or
raises. -/

namespace Choreography

inductive Activity (α : Type) where
  | done (result : Except Error α)
  | sleep (length : Seconds) (next : Activity α)
  /-- Cancels cascades. -/
  | cancel (roots : List InvocationId) (next : Activity α)
  /-- Takes a number that nobody took before. -/
  | draw (next : Nat → Activity α)
  /-- Asks whether an operation is offered. -/
  | find (action : ActionRef) (next : Except Error Unit → Activity α)
  | call (action : ActionRef) (input : Fields) (next : Except Error Value → Activity α)

namespace Activity

/-- One activity after another. The second sees only what the first returned. -/
def bind : Activity α → (α → Activity β) → Activity β
  | .done (.ok a), f => f a
  | .done (.error e), _ => .done (.error e)
  | .sleep length next, f => .sleep length (next.bind f)
  | .cancel roots next, f => .cancel roots (next.bind f)
  | .draw next, f => .draw fun n => (next n).bind f
  | .find action next, f => .find action fun found => (next found).bind f
  | .call action input next, f => .call action input fun answer => (next answer).bind f

instance : Monad Activity where
  pure a := .done (.ok a)
  bind := bind

def raise (e : Error) : Activity α := .done (.error e)

def ofExcept (result : Except Error α) : Activity α := .done result

/-- A number that nobody took before. -/
def fresh : Activity Nat := .draw pure

/-- Makes sure that an operation is offered. -/
def ensure (action : ActionRef) : Activity Unit := .find action .done

/-- Calls an operation and returns its answer. -/
def ask (action : ActionRef) (input : Fields) : Activity Value := .call action input .done

/-- What the activity comes to, as a result and not as an error. -/
def attempt : Activity α → Activity (Except Error α)
  | .done result => .done (.ok result)
  | .sleep length next => .sleep length next.attempt
  | .cancel roots next => .cancel roots next.attempt
  | .draw next => .draw fun n => (next n).attempt
  | .find action next => .find action fun found => (next found).attempt
  | .call action input next => .call action input fun answer => (next answer).attempt

end Activity

end Choreography
