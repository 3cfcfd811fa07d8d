import Choreography.Log

/-! What can be seen of an engine from outside, in the order in which it happens:
calls and invocations, faults, log records and what was handed to the audit. -/

namespace Choreography

inductive Level where
  /-- The level of what has none of its own. -/
  | unset
  | debug
  | info
  | warning
  | error
  | critical
deriving DecidableEq

def Level.name : Level → String
  | .unset => "NOTSET"
  | .debug => "DEBUG"
  | .info => "INFO"
  | .warning => "WARNING"
  | .error => "ERROR"
  | .critical => "CRITICAL"

/-- Two levels go by a second name. -/
def Level.ofName? : String → Option Level
  | "WARN" => some .warning
  | "FATAL" => some .critical
  | name => [.unset, .debug, .info, .warning, .error, .critical].find? (·.name == name)

/-- One line for the operators. -/
structure LogRecord where
  level : Level
  logger : String
  message : String
  extra : Fields := []
  /-- The error that the record is about, by name. -/
  raised : Option String := none

/-- The record that stands for a fault in the log. -/
def faultRecord (logger : String) (f : Failure) : LogRecord where
  level := .error
  logger := logger
  message := f.cause.code ++ ": " ++ f.cause.message
  extra :=
    let kind : Fields := match f.cause with
      | .mishap what _ => [("fault_kind", .text what.kind.name)]
      | _ => []
    (f.logFields ++ kind).filter fun field => match field.2 with
      | .null => false
      | _ => true
  raised := match f.cause with
    | .mishap _ source => source
    | _ => none

/-- One row of the audit. -/
structure AuditRow where
  run : Option String
  invocation : Invocation

def AuditRow.toFields (r : AuditRow) : Fields :=
  let i := r.invocation
  [("run_id", .ofOption .text r.run), ("invocation_id", .int i.id), ("cascade_root", .int i.root),
   ("depth", .ofNat i.depth), ("component", .text i.action.component),
   ("operation", .text i.action.operation), ("input", .map i.input), ("output", .map i.output),
   ("caused_by", .list (i.causes.map .int)), ("is_error", .bool i.failed)]

inductive Event where
  /-- A component was called. -/
  | called (action : ActionRef) (input : Fields)
  | logged (invocation : Invocation)
  /-- A fault was handed to the fault sink. -/
  | fault (failure : Failure)
  /-- A drained cascade was handed to the repository. -/
  | saved (ids : List InvocationId)
  | recorded (rows : List AuditRow)
  | note (record : LogRecord)
  /-- A cascade was dropped from the log. -/
  | forgot (root : InvocationId)

end Choreography
