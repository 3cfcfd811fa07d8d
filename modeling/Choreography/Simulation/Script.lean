import Choreography.Activity
import Choreography.Value.Agreement
import Choreography.Value.Nan

/-! Components that follow a script. An operation checks its arguments, counts its
calls, and does what the first case says that fits the call. -/

namespace Choreography.Simulation

/-- A value with gaps, which are filled when it is returned. -/
inductive Template where
  | constant (value : Value)
  | argument (name : String)
  /-- The number of the call. -/
  | count
  /-- An argument, or zero, and one. -/
  | increment (name : String)
  | concat (parts : List Template)
  | list (items : List Template)
  | map (fields : List (String × Template))
deriving Inhabited

/-- What an operation does in one case. -/
structure Case where
  /-- Only for the call with this number. -/
  nth : Option Nat := none
  /-- Only for calls with these arguments. -/
  conditions : Fields := []
  cancels : Option InvocationId := none
  delay : Option Seconds := none
  raises : Option Error := none
  returns : Template := .constant .null

structure Parameters where
  needed : List String
  allowed : List String

structure Script where
  /-- A method that cannot be awaited is no operation. -/
  blocking : Bool := false
  parameters : Option Parameters := none
  cases : List Case := []

/-- A component is the request desk, or follows a script in each of its methods. -/
inductive Component where
  | desk
  | scripted (methods : List (String × Script))

/-- One more than a value, if it is a number. -/
def plusOne : Value → Except Error Value
  | .bool b => .ok (.int (if b then 2 else 1))
  | .int n => .ok (.int (n + 1))
  | .float x => .ok (.float (x.addInt 1))
  | .text _ => .error (.plain .type "can only concatenate str (not \"int\") to str")
  | .list _ => .error (.plain .type "can only concatenate list (not \"int\") to list")
  | v =>
    let kind := v.typeName
    .error (.plain .type s!"unsupported operand type(s) for +: '{kind}' and 'int'")

namespace Template

mutual

/-- Fills the gaps for one call. -/
def fill (input : Fields) (number : Nat) : Template → Activity Value
  | .constant value => value.renew Activity.fresh
  | .argument name => pure ((Fields.get? input name).getD .null)
  | .count => pure (.ofNat number)
  | .increment name => do
    let sum ← Activity.ofExcept (plusOne ((Fields.get? input name).getD (.int 0)))
    sum.renew Activity.fresh
  | .concat parts => do
    let values ← fillEach input number parts
    return .text (String.join (values.map Value.plainText))
  | .list items => do return .list (← fillEach input number items)
  | .map fields => do return .map (Fields.ofList (← fillFields input number fields))
termination_by structural t => t

def fillEach (input : Fields) (number : Nat) : List Template → Activity (List Value)
  | [] => pure []
  | t :: ts => do
    let value ← fill input number t
    return value :: (← fillEach input number ts)
termination_by structural ts => ts

def fillFields (input : Fields) (number : Nat) :
    List (String × Template) → Activity (List (String × Value))
  | [] => pure []
  | (name, t) :: ts => do
    let value ← fill input number t
    return (name, value) :: (← fillFields input number ts)
termination_by structural ts => ts

end

end Template

namespace Script

/-- Why the arguments of a call are refused, if they are. -/
def refusal? (s : Script) (input : Fields) : Option Error :=
  match s.parameters with
  | none => none
  | some p =>
    match p.needed.find? fun name => !Fields.has input name with
    | some name => some (.plain .type s!"missing argument '{name}'")
    | none =>
      let unknown := (Fields.names input).filter fun name =>
        !p.needed.contains name && !p.allowed.contains name
      match Text.sorted unknown with
      | [] => none
      | name :: _ => some (.plain .type s!"unexpected argument '{name}'")

def fits (c : Case) (input : Fields) (number : Nat) : Bool :=
  c.nth.all (· == number) &&
    c.conditions.all fun condition =>
      (Fields.get? input condition.1).any (·.agrees condition.2)

/-- What a case does, once its arguments are accepted. -/
def act (c : Case) (input : Fields) (number : Nat) : Activity Value :=
  let last : Activity Value := match c.raises with
    | some e => .raise e
    | none => c.returns.fill input number
  let rested := (c.delay.map fun length => Activity.sleep length last).getD last
  (c.cancels.map fun root => Activity.cancel [root] rested).getD rested

/-- What the operation does at its call with a given number. -/
def answer (s : Script) (input : Fields) (number : Nat) : Activity Value :=
  match s.cases.find? fun c => fits c input number with
  | some c => act c input number
  | none => pure (.map [])

end Script

end Choreography.Simulation
