import Choreography.Pattern
import Choreography.Value.Agreement

/-! Matching a pattern against one observed call. Fields are taken in order, inputs
before outputs. A variable is bound at its first occurrence, and every later one
is compared with that first value. -/

namespace Choreography

/-- The bindings after one field, if the field matches what was observed there. -/
def FieldPattern.unify (expected : FieldPattern) (actual? : Option Value) (bindings : Fields) :
    Option Fields :=
  match expected, actual? with
  | .wildcard, _ => some bindings
  | _, none => none
  | .literal value, some actual => if actual.agrees value then some bindings else none
  | .variable name, some actual =>
    match Fields.get? bindings name with
    | none => some (Fields.set bindings name actual)
    | some bound => if bound.agrees actual then some bindings else none

/-- The bindings after all fields, if every one matches. -/
def FieldPatterns.unify : FieldPatterns → Fields → Fields → Option Fields
  | [], _, bindings => some bindings
  | (name, expected) :: rest, observed, bindings =>
    match expected.unify (Fields.get? observed name) bindings with
    | none => none
    | some extended => unify rest observed extended

/-- Matches a pattern against a call of `action` with its input and output. -/
def Pattern.unify (p : Pattern) (action : ActionRef) (input output bindings : Fields) :
    Option Fields :=
  if p.action = action ∧ (p.matchesErrors → isErrorOutput output) then
    match FieldPatterns.unify p.inputs input bindings with
    | none => none
    | some extended => FieldPatterns.unify p.outputs output extended
  else none

end Choreography
