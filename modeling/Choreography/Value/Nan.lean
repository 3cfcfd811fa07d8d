import Choreography.Value

/-! Nans are told apart by their marks, so that a nan can be known again. What is
written down once and made anew each time has other nans each time. -/

namespace Choreography

variable {m : Type → Type} [Monad m]

mutual

/-- The same value with new nans, whose marks are drawn from `fresh`. -/
def Value.renew (fresh : m Nat) : Value → m Value
  | .float x => if x.isNan then do return .float (.nan (← fresh)) else pure (.float x)
  | .list items => do return .list (← Value.renewEach fresh items)
  | .map fields => do return .map (← Fields.renew fresh fields)
  | v => pure v
termination_by structural v => v

def Value.renewEach (fresh : m Nat) : List Value → m (List Value)
  | [] => pure []
  | v :: vs => do return (← v.renew fresh) :: (← Value.renewEach fresh vs)
termination_by structural vs => vs

def Fields.renew (fresh : m Nat) : List (String × Value) → m (List (String × Value))
  | [] => pure []
  | (name, v) :: rest => do return (name, ← v.renew fresh) :: (← Fields.renew fresh rest)
termination_by structural fs => fs

end

end Choreography
