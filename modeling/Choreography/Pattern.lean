import Choreography.Error

/-! Patterns describe the invocations a rule waits for and the calls it makes. For
each field they name a literal, a variable, or nothing in particular. -/

namespace Choreography

inductive FieldPattern where
  /-- Matches what counts as equal to the value. -/
  | literal (value : Value)
  /-- Matches anything, and also a field that is absent. -/
  | wildcard
  /-- Matches what the variable is bound to, or binds it. -/
  | variable (name : String)

def FieldPattern.text : FieldPattern → String
  | .literal value => "Literal(value=" ++ value.exactText ++ ")"
  | .wildcard => "_"
  | .variable name => "?" ++ name

/-- What messages call the kind of a field pattern. -/
def FieldPattern.typeName : FieldPattern → String
  | .literal _ => "Literal"
  | .wildcard => "Wildcard"
  | .variable _ => "Variable"

def FieldPattern.name? : FieldPattern → Option String
  | .variable name => some name
  | _ => none

/-- Patterns for named fields, each name once. -/
abbrev FieldPatterns := List (String × FieldPattern)

def FieldPatterns.text (fields : FieldPatterns) : String :=
  bracketed "\x7b" (fields.map fun f => Text.quoted f.1 ++ ": " ++ f.2.text) "\x7d"

/-- The shape of one invocation. -/
structure Pattern where
  action : ActionRef
  inputs : FieldPatterns := []
  outputs : FieldPatterns := []

namespace Pattern

/-- A pattern that names the error field matches failed invocations only. -/
def matchesErrors (p : Pattern) : Bool := p.outputs.any (·.1 == errorField)

/-- The variables in the order of their occurrences. -/
def occurrences (p : Pattern) : List String :=
  (p.inputs ++ p.outputs).filterMap fun f => f.2.name?

def text (p : Pattern) : String :=
  "[" ++ p.action.text ++ ", " ++ FieldPatterns.text p.inputs ++ ", " ++
    FieldPatterns.text p.outputs ++ "]"

end Pattern

end Choreography
