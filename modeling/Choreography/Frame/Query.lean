import Choreography.Frame

/-! Joining frames with what a query answers. The query is asked once for each
frame in which its inputs are known, and every row of an answer that fits the
frame gives one extended frame. -/

namespace Choreography

namespace Frame

/-- What a field pattern stands for in a frame: nothing for a wildcard. -/
def resolve? (f : Frame) : FieldPattern → Option Value
  | .literal value => some value
  | .wildcard => none
  | .variable name => f.get? name

/-- The inputs that are known in a frame, each under its name. -/
def resolve (f : Frame) (inputs : FieldPatterns) : Fields :=
  inputs.filterMap fun input => (f.resolve? input.2).map fun value => (input.1, value)

/-- The inputs of a query, or none if a variable among them is unbound. -/
def queryInputs? (f : Frame) (inputs : FieldPatterns) : Option Fields :=
  if inputs.all fun input => input.2.name?.all fun name => (f.get? name).isSome then
    some (f.resolve inputs)
  else none

end Frame

/-- A row is a map that does not report an error. -/
def resultRow? : Value → Option Fields
  | .map fields => if isErrorOutput fields then none else some fields
  | _ => none

/-- The rows of an answer: a map is one row, a list has those of its items. -/
def resultRows : Value → List Fields
  | .list items => items.filterMap resultRow?
  | result => (resultRow? result).toList

/-- What a row binds: the variable of every output field to the value there. -/
def rowBindings? (outputs : List (String × String)) (row : Fields) : Option Fields :=
  match outputs with
  | [] => some []
  | (field, name) :: rest => do
    let value ← Fields.get? row field
    let later ← rowBindings? rest row
    return (name, value) :: later

namespace Frame

/-- The frame joined with one row, unless the row lacks a field or disagrees. -/
def joinRow? (f : Frame) (outputs : List (String × String)) (row : Fields) : Option Frame := do
  let extra ← rowBindings? outputs row
  match f.extend extra with
  | .ok joined => some joined
  | .error _ => none

def joinRows (f : Frame) (outputs : List (String × String)) (result : Value) : Frames :=
  (resultRows result).filterMap (f.joinRow? outputs)

end Frame

/-- Asks `call` for each frame in turn and joins the frame with the answer. -/
def Frames.query [Monad m] (call : Fields → m Value) (inputs : FieldPatterns)
    (outputs : List (String × String)) : Frames → m Frames
  | [] => pure []
  | f :: rest => do
    let joined ← match f.queryInputs? inputs with
      | none => pure []
      | some input => do
        let result ← call input
        pure (f.joinRows outputs result)
    let later ← query call inputs outputs rest
    pure (joined ++ later)

end Choreography
