import Choreography.Error.Calendar

/-! Failures as a caller describes them: by the name of what went wrong, by what the
message tells, and by the place. -/

namespace Choreography

/-- One of some named things. -/
def Error.oneOf (ofName? : String → Option α) (type : String) (value : Value) : Except Error α :=
  let found? := match value with
    | .text name => ofName? name
    | _ => none
  match found? with
  | some found => .ok found
  | none => .error (.plain .value (value.exactText ++ " is not a valid " ++ type))

structure Description where
  name : String
  /-- What the message tells. -/
  parts : List Value
  /-- Where it happened, by the names of the parts of a place. -/
  place : Option Fields := none
  severity : Value := .null
  status : Value := .null
  /-- The name of the error behind it. -/
  source : Option String := none

namespace Description

/-- What the parts of a description are. -/
def partNames : List (String × List String) :=
  [("ConcordError", ["message", "code", "category"]),
   ("RuleDefinitionError", ["rule", "reason"]),
   ("RegistryFrozenError", ["registry"]),
   ("UnknownOperationError", ["component", "operation"]),
   ("InvalidInvocationError", ["operation", "reason"]),
   ("BindingConflictError", ["variable", "bound", "attempted"]),
   ("EngineFault", ["message", "kind"]),
   ("CycleDetectedError", ["max_depth"]),
   ("ResourceNotFoundError", ["resource_type", "resource_id"]),
   ("RequestTimeoutError", ["timeout_seconds"]),
   ("DatabaseError", ["message", "operation"])]

/-- Names in a list. -/
def enumerated (names : List String) : String :=
  match names.map Text.quoted with
  | [] => ""
  | [a] => a
  | [a, b] => s!"{a} and {b}"
  | names => ", ".intercalate names.dropLast ++ ", and " ++ (names.getLast?.getD "")

/-- What is wrong with the number of parts, if anything is. A part too many takes the place
of the place, which is always given by its name. In one description the severity stands
before the place, and has to be a severity there. -/
def miscounted? (d : Description) : Option Error :=
  let fail (text : String) : Option Error := some (.plain .type (s!"{d.name}.__init__() " ++ text))
  let twice (name : String) : Option Error := fail s!"got multiple values for argument '{name}'"
  match partNames.lookup d.name with
  | none => none
  | some names =>
    let count := d.parts.length
    let expected := names.length
    let hasSeverity := d.name = "ConcordError"
    if count < expected then
      let ending := if expected - count = 1 then "" else "s"
      fail (s!"missing {expected - count} required positional argument{ending}: " ++
        enumerated (names.drop count))
    else if count = expected then none
    else if hasSeverity && count = expected + 1 then
      match d.severity with
      | .null => some (.plain .attribute "")
      | _ => twice "severity"
    else twice "context"

/-- Parts that are read by what they name. They are looked for before the parts are counted. -/
def named? (d : Description) (k : Nat) : Except Error Value :=
  match d.parts[k]? with
  | some part => .ok part
  | none => .error (.plain .index "")

/-- The parts are as many as they should be. -/
def counted (d : Description) : Except Error Unit :=
  match d.miscounted? with
  | some error => .error error
  | none => .ok ()

def cause (d : Description) : Except Error Cause := do
  let part (k : Nat) : Value := d.parts.getD k .null
  let text (k : Nat) : String := (part k).plainText
  let found (cause : Cause) : Except Error Cause := d.counted.map fun () => cause
  match d.name with
  | "RuleDefinitionError" => found (.invalidRule (text 0) (.stated (text 1)))
  | "RegistryFrozenError" => found (.frozen (text 0))
  | "UnknownOperationError" => found (.unknownOperation (text 0) (text 1))
  | "InvalidInvocationError" => found (.invalidInvocation (text 0) (text 1))
  | "BindingConflictError" => found (.bindingConflict (text 0) (part 1) (part 2))
  | "EngineFault" =>
    let kind ← Error.oneOf FaultKind.ofName? "FaultKind" (← d.named? 1)
    found (.mishap (.stated (text 0) kind) d.source)
  | "CycleDetectedError" => found (.tooDeep (part 0))
  | "ResourceNotFoundError" => found (.notFound (text 0) (text 1))
  | "RequestTimeoutError" => found (.unanswered (part 0))
  | "DatabaseError" => found (.database (text 1) (text 0))
  | _ =>
    let category ← Error.oneOf Category.ofName? "ErrorCategory" (← d.named? 2)
    let severity ← match d.severity with
      | .null => .ok .error
      | severity => Error.oneOf Severity.ofName? "ErrorSeverity" severity
    let status := match d.status with
      | .int n => n
      | _ => 500
    found (.stated (text 0) (text 1) category severity status)

/-- The names of the parts of a place. -/
def placeNames : List String :=
  ["timestamp", "rule", "invocation_id", "cascade_root", "depth", "path", "debug_info"]

def unlessNull : Value → Option Value
  | .null => none
  | value => some value

/-- The place of a failure, which is found before anything else. -/
def context (place : Fields) : Except Error Context := do
  if let some (name, _) := place.find? fun field => !placeNames.contains field.1 then
    throw (.plain .type
      s!"ErrorContext.__init__() got an unexpected keyword argument {Text.quoted name}")
  let get (name : String) : Option Value := (Fields.get? place name).bind unlessNull
  let text (name : String) : Option String := match get name with
    | some (.text s) => some s
    | _ => none
  let number (name : String) : Option Int := match get name with
    | some (.int n) => some n
    | _ => none
  let moment ← match get "timestamp" with
    | some (.list values) => (Timestamp.ofValues values).map some
    | _ => .ok none
  return {
    rule := text "rule"
    invocation := number "invocation_id"
    root := number "cascade_root"
    depth := number "depth"
    path := text "path"
    debug := get "debug_info"
    moment
    stated := place.filter fun field => placeNames.contains field.1 }

/-- What is told of the failure as it was described. -/
def stated (d : Description) : Fields :=
  let part (k : Nat) : Value := d.parts.getD k .null
  match d.name with
  | "RuleDefinitionError" => [("rule", part 0)]
  | "EngineFault" => [("message", part 0)]
  | "ConcordError" =>
    [("message", part 0), ("code", part 1)] ++
      ((unlessNull d.status).map fun status => ("http_status", status)).toList
  | _ => []

def failure (d : Description) : Except Error Failure := do
  if (partNames.lookup d.name).isNone then throw (.plain .attribute "")
  let context ← context (d.place.getD [])
  let cause ← d.cause
  return .of cause { context with stated := Fields.merge context.stated d.stated }

end Description

end Choreography
