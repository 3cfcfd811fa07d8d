import Choreography.Value

/-! Operations and the names they go by. An operation belongs to a component, and
the way its name begins decides whether it is an action or a query. -/

namespace Choreography

/-- Invocations are numbered from 1 in the order in which they are logged. Whoever asks
for an invocation may ask for any number. -/
abbrev InvocationId := Int

/-- An operation of a component. -/
structure ActionRef where
  component : String
  operation : String
deriving DecidableEq, Inhabited

namespace ActionRef

def text (a : ActionRef) : String := a.component ++ "." ++ a.operation

/-- Reads a component and an operation around the first point, neither empty. -/
def parse? (dotted : String) : Option ActionRef :=
  match dotted.toList.takeWhile (· != '.'), dotted.toList.dropWhile (· != '.') with
  | c :: component, _ :: o :: operation =>
    some ⟨String.ofList (c :: component), String.ofList (o :: operation)⟩
  | _, _ => none

end ActionRef

/-- Actions change state and drive cascades; queries only read. -/
inductive OperationKind where
  | action
  | query
deriving DecidableEq

def OperationKind.name : OperationKind → String
  | .action => "action"
  | .query => "query"

/-- How the names of queries begin. -/
def queryOpenings : List String := ["get_", "list_", "find_"]

def operationKind (name : String) : OperationKind :=
  if queryOpenings.any (fun opening => opening.toList.isPrefixOf name.toList) then .query
  else .action

def ActionRef.kind (a : ActionRef) : OperationKind := operationKind a.operation

/-- The field by which an output says that its operation failed. -/
def errorField : String := "error"

def isErrorOutput (output : Fields) : Bool := Fields.has output errorField

/-- The component at which requests from outside enter. -/
def requestingName : String := "Requesting"

end Choreography
