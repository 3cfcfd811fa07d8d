import Choreography.Action
import Choreography.Duration

/-! Causes of failure that the library itself describes. Every cause has a code, a
category, a severity and a status for callers outside, and one message. -/

namespace Choreography

inductive Severity where
  | info
  | warning
  | error
  | critical
deriving DecidableEq

def Severity.name : Severity → String
  | .info => "info"
  | .warning => "warning"
  | .error => "error"
  | .critical => "critical"

inductive Category where
  | validation
  | configuration
  | resourceNotFound
  | database
  | engine
  | internal
  | timeout
deriving DecidableEq

def Category.name : Category → String
  | .validation => "validation"
  | .configuration => "configuration"
  | .resourceNotFound => "resource_not_found"
  | .database => "database"
  | .engine => "engine"
  | .internal => "internal"
  | .timeout => "timeout"

def Severity.ofName? (name : String) : Option Severity :=
  [.info, .warning, .error, .critical].find? (·.name == name)

def Category.ofName? (name : String) : Option Category :=
  [.validation, .configuration, .resourceNotFound, .database, .engine, .internal, .timeout].find?
    (·.name == name)

/-- What is wrong with a rule. -/
inductive RuleFlaw where
  | unnamed
  | noPatterns
  /-- Something else stands where a pattern should, shown exactly. -/
  | notAPattern (shown : String)
  | mentionsQuery (action : ActionRef)
  | declaresOutputs (action : ActionRef)
  | blockingWhere
  | unknownClauses (names : List String)
  | nameTaken
  | unregisteredTarget (action : ActionRef)
  | stated (reason : String)

def RuleFlaw.reason : RuleFlaw → String
  | .unnamed => "rule name is empty"
  | .noPatterns => "when-clause has no patterns"
  | .notAPattern shown => "not a Pattern: " ++ shown
  | .mentionsQuery a => a.text ++ " is a query; rules match actions only"
  | .declaresOutputs a => "then-pattern " ++ a.text ++ " declares outputs"
  | .blockingWhere => "where must be an async function"
  | .unknownClauses names =>
    "unknown clauses " ++ bracketed "[" (names.map Text.quoted) "]"
  | .nameTaken => "a rule with this name already exists"
  | .unregisteredTarget a => "then-target " ++ a.text ++ " is not registered"
  | .stated reason => reason

/-- The stage of a cascade in which something went wrong. -/
inductive FaultKind where
  | enrichment
  | binding
  | resolution
  | dispatch
deriving DecidableEq

def FaultKind.name : FaultKind → String
  | .enrichment => "enrichment"
  | .binding => "binding"
  | .resolution => "resolution"
  | .dispatch => "dispatch"

def FaultKind.ofName? (name : String) : Option FaultKind :=
  [.enrichment, .binding, .resolution, .dispatch].find? (·.name == name)

/-- What went wrong for one rule or one frame while its cascade went on. -/
inductive Mishap where
  | whereTimedOut (rule : String) (limit : Option Seconds) (frames : Nat)
  | whereFailed (rule : String) (text : String)
  | whereFailedFor (rule : String) (support : List InvocationId) (text : String)
  | whereReturned (rule : String) (typeName : String)
  | whereReturnedItem (rule : String) (typeName : String)
  | foreignFrame (rule : String)
  | rebound (text : String)
  | notRegistered (action : ActionRef)
  | callRaised (action : ActionRef) (kind text : String)
  | callReturned (action : ActionRef) (typeName : String)
  | stated (text : String) (kind : FaultKind)

namespace Mishap

def message : Mishap → String
  | .whereTimedOut rule limit frames =>
    let shown := (limit.map Seconds.text).getD "None"
    s!"where of '{rule}' timed out after {shown}s ({frames} frame(s) dropped)"
  | .whereFailed rule text => s!"where of '{rule}' failed: {text}"
  | .whereFailedFor rule support text =>
    let shown := tupleText (support.map toString)
    s!"where of '{rule}' failed for support {shown}: {text}"
  | .whereReturned rule typeName => s!"where of '{rule}' returned {typeName}, not Frames"
  | .whereReturnedItem rule typeName => s!"where of '{rule}' returned a {typeName} item"
  | .foreignFrame rule => s!"where of '{rule}' returned a frame not derived from its input"
  | .rebound text => text
  | .notRegistered action => action.text ++ " is not registered"
  | .callRaised action kind text => s!"{action.text} raised {kind}: {text}"
  | .callReturned action typeName =>
    s!"{action.text} returned {typeName}, expected a mapping"
  | .stated text _ => text

def kind : Mishap → FaultKind
  | .whereTimedOut .. | .whereFailed .. | .whereFailedFor .. => .enrichment
  | .whereReturned .. | .whereReturnedItem .. | .foreignFrame .. => .enrichment
  | .rebound .. => .binding
  | .notRegistered .. => .resolution
  | .callRaised .. | .callReturned .. => .dispatch
  | .stated _ kind => kind

end Mishap

/-- Why something failed. -/
inductive Cause where
  | invalidRule (rule : String) (flaw : RuleFlaw)
  | frozen (registry : String)
  | unknownOperation (component operation : String)
  | invalidInvocation (operation reason : String)
  | bindingConflict (name : String) (bound attempted : Value)
  /-- A mishap, and the name of the error behind it if there was one. -/
  | mishap (what : Mishap) (source : Option String)
  /-- A cascade is deeper than a limit, which is told as it was given. -/
  | tooDeep (limit : Value)
  | notFound (resource id : String)
  /-- Nobody answered a request in time. -/
  | unanswered (limit : Value)
  | database (operation message : String)
  /-- Anything may be asked for in the place of an invocation. -/
  | unknownInvocation (id : Value)
  | mixedParents (roots : List InvocationId)
  | unreadablePolicy
  | misshapenPolicy
  | stated (message code : String) (category : Category) (severity : Severity) (status : Int)

namespace Cause

/-- The name under which a failure is reported. -/
def name : Cause → String
  | .invalidRule .. => "RuleDefinitionError"
  | .frozen .. => "RegistryFrozenError"
  | .unknownOperation .. => "UnknownOperationError"
  | .invalidInvocation .. => "InvalidInvocationError"
  | .bindingConflict .. => "BindingConflictError"
  | .mishap .. => "EngineFault"
  | .tooDeep .. => "CycleDetectedError"
  | .notFound .. => "ResourceNotFoundError"
  | .unanswered .. => "RequestTimeoutError"
  | .database .. => "DatabaseError"
  | .unknownInvocation .. | .mixedParents .. => "ConcordError"
  | .unreadablePolicy | .misshapenPolicy | .stated .. => "ConcordError"

def message : Cause → String
  | .invalidRule rule flaw => s!"Invalid rule '{rule}': {flaw.reason}"
  | .frozen registry => registry ++ " is frozen; register everything at startup"
  | .unknownOperation component operation => s!"Operation '{component}.{operation}' not found"
  | .invalidInvocation operation reason => s!"Cannot invoke '{operation}': {reason}"
  | .bindingConflict name bound attempted =>
    s!"Variable '{name}' already bound to {bound.exactText}, " ++
      s!"cannot rebind to {attempted.exactText}"
  | .mishap what _ => what.message
  | .tooDeep limit => s!"Cascade exceeded maximum depth ({limit.plainText})"
  | .notFound resource id => s!"{resource} '{id}' not found"
  | .unanswered limit => s!"Request was not answered within {limit.plainText}s"
  | .database operation message => s!"Database {operation} failed: {message}"
  | .unknownInvocation id => s!"Invocation {id.plainText} is not in the log"
  | .mixedParents roots =>
    "Causal parents span cascades " ++ bracketed "[" (roots.map toString) "]"
  | .unreadablePolicy => "Cannot load passthrough config"
  | .misshapenPolicy => "passthrough inclusions must map route -> justification"
  | .stated message .. => message

def code : Cause → String
  | .invalidRule .. => "RULE_DEFINITION_ERROR"
  | .frozen .. => "REGISTRY_FROZEN"
  | .unknownOperation .. => "UNKNOWN_OPERATION"
  | .invalidInvocation .. => "INVALID_INVOCATION"
  | .bindingConflict .. => "BINDING_CONFLICT"
  | .mishap .. => "ENGINE_FAULT"
  | .tooDeep .. => "CYCLE_DETECTED"
  | .notFound .. => "RESOURCE_NOT_FOUND"
  | .unanswered .. => "REQUEST_TIMEOUT"
  | .database .. => "DATABASE_ERROR"
  | .unknownInvocation .. => "UNKNOWN_INVOCATION"
  | .mixedParents .. => "CROSS_CASCADE_PARENTS"
  | .unreadablePolicy | .misshapenPolicy => "PASSTHROUGH_CONFIG_ERROR"
  | .stated _ code .. => code

def category : Cause → Category
  | .invalidRule .. | .frozen .. | .unreadablePolicy | .misshapenPolicy => .configuration
  | .unknownOperation .. | .notFound .. | .unknownInvocation .. => .resourceNotFound
  | .invalidInvocation .. => .validation
  | .bindingConflict .. | .mishap .. | .tooDeep .. | .mixedParents .. => .engine
  | .unanswered .. => .timeout
  | .database .. => .database
  | .stated _ _ category .. => category

def severity : Cause → Severity
  | .invalidRule .. | .frozen .. | .tooDeep .. | .database .. => .critical
  | .mixedParents .. | .unreadablePolicy | .misshapenPolicy => .critical
  | .unknownOperation .. | .invalidInvocation .. | .bindingConflict .. => .error
  | .mishap .. | .notFound .. | .unknownInvocation .. => .error
  | .unanswered .. => .warning
  | .stated _ _ _ severity _ => severity

/-- The status that a caller over HTTP is given. -/
def status : Cause → Int
  | .unknownOperation .. | .notFound .. | .unknownInvocation .. => 404
  | .invalidInvocation .. => 400
  | .unanswered .. => 504
  | .database .. => 503
  | .stated _ _ _ _ status => status
  | _ => 500

end Cause

end Choreography
