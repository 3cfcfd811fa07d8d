import Choreography.Decimal.Rounded
import Choreography.Error.Cause

/-! Errors, as they are raised and as they are told. A described failure knows
where it happened; any other error is known by its kind and a text. -/

namespace Choreography

/-- A moment of the calendar, in universal time. -/
structure Timestamp where
  year : Nat
  month : Nat
  day : Nat
  hour : Nat
  minute : Nat
  second : Nat
  microsecond : Nat

/-- Date and time with the offset of universal time. Microseconds are written
only when there are some. -/
def Timestamp.text (t : Timestamp) : String :=
  let padded := Decimal.zeroPadded
  let date := s!"{padded 4 t.year}-{padded 2 t.month}-{padded 2 t.day}"
  let time := s!"{padded 2 t.hour}:{padded 2 t.minute}:{padded 2 t.second}"
  let fraction := if t.microsecond = 0 then "" else "." ++ padded 6 t.microsecond
  date ++ "T" ++ time ++ fraction ++ "+00:00"

/-- Where and when something failed, as far as it is known. -/
structure Context where
  rule : Option String := none
  invocation : Option InvocationId := none
  root : Option InvocationId := none
  depth : Option Int := none
  path : Option String := none
  debug : Option Value := none
  /-- When it failed, if that was fixed; else the moment at which it is told. -/
  moment : Option Timestamp := none
  /-- What a caller has stated about the failure, which is told as it was stated. -/
  stated : Fields := []

/-- A failure that the library describes. -/
structure Failure where
  cause : Cause
  context : Context

/-- A value or nothing. -/
def Value.ofOption (wrap : α → Value) : Option α → Value
  | some a => wrap a
  | none => .null

def Value.ofNat (n : Nat) : Value := .int n

/-- A rule at fault is always known. -/
def Cause.place : Cause → Context → Context
  | .invalidRule rule _, context => { context with rule := some rule }
  | _, context => context

namespace Failure

/-- A failure with a given cause, in a given place. -/
def of (cause : Cause) (context : Context) : Failure := ⟨cause, cause.place context⟩

/-- What is told under a name: what was stated, or else what is known. -/
def told (f : Failure) (name : String) (known : Value) : String × Value :=
  (name, (Fields.get? f.context.stated name).getD known)

/-! What is told of a failure, each under its name. -/

def rule (f : Failure) : String × Value := f.told "rule" (.ofOption .text f.context.rule)

def invocation (f : Failure) : String × Value :=
  f.told "invocation_id" (.ofOption .int f.context.invocation)

def root (f : Failure) : String × Value := f.told "cascade_root" (.ofOption .int f.context.root)

def depth (f : Failure) : String × Value := f.told "depth" (.ofOption .int f.context.depth)

def path (f : Failure) : String × Value := f.told "path" (.ofOption .text f.context.path)

def code (f : Failure) : String × Value := f.told "code" (.text f.cause.code)

def message (f : Failure) : String × Value := f.told "message" (.text f.cause.message)

def status (f : Failure) : String × Value := f.told "http_status" (.int f.cause.status)

/-- The failure told to a caller outside, where `now` is the time of telling. -/
def response (f : Failure) (now : String) : Value :=
  .map [("error", .map
    [f.code, f.message,
     ("category", .text f.cause.category.name),
     ("severity", .text f.cause.severity.name),
     ("timestamp", .text ((f.context.moment.map Timestamp.text).getD now)),
     ("context", .map [f.rule, f.invocation, f.root, f.path])])]

/-- The failure as fields of a log record. -/
def logFields (f : Failure) : Fields :=
  [("error_code", f.code.2), f.rule, f.invocation, f.root, f.depth]

end Failure

/-- Kinds of errors that components, rules and callers raise by themselves. -/
inductive ErrorKind where
  | value
  | type
  | attribute
  | index
  | key
  | runtime
  | zeroDivision
  | timeout
  /-- A step's own time limit passed. -/
  | taskTimeout
  /-- The cascade that waits was cancelled or ran past its deadline. -/
  | cascadeCancelled
  /-- Something that should hold does not. -/
  | assertion
  /-- A name or an address that is no argument for what it is given to. -/
  | argument
  | invalidUrl
  | invalidRequest
  | noSuchModule
  | moduleNotFound
  /-- A database fails at work. -/
  | operational
  /-- The system refuses what it is asked. -/
  | system
  | overflow
  | memory
  | recursion
  /-- A text that an encoding does not have. -/
  | encoding
  /-- A value that cannot be written out. -/
  | serialization
  /-- The caller gave up waiting. Handlers of ordinary errors do not see it. -/
  | cancelled
deriving DecidableEq

def ErrorKind.name : ErrorKind → String
  | .value => "ValueError"
  | .type => "TypeError"
  | .attribute => "AttributeError"
  | .index => "IndexError"
  | .key => "KeyError"
  | .runtime => "RuntimeError"
  | .zeroDivision => "ZeroDivisionError"
  | .timeout => "TimeoutError"
  | .taskTimeout => "TaskTimeout"
  | .cascadeCancelled => "CascadeCancelled"
  | .assertion => "AssertionError"
  | .argument => "ArgumentError"
  | .invalidUrl => "InvalidURL"
  | .invalidRequest => "InvalidRequestError"
  | .noSuchModule => "NoSuchModuleError"
  | .moduleNotFound => "ModuleNotFoundError"
  | .operational => "OperationalError"
  | .system => "OSError"
  | .overflow => "OverflowError"
  | .memory => "MemoryError"
  | .recursion => "RecursionError"
  | .encoding => "UnicodeEncodeError"
  | .serialization => "PydanticSerializationError"
  | .cancelled => "CancelledError"

def ErrorKind.ofName? (name : String) : Option ErrorKind :=
  [.value, .type, .attribute, .index, .key, .runtime, .zeroDivision, .timeout,
   .cascadeCancelled, .cancelled].find? (·.name == name)

/-- Anything that can be raised. -/
inductive Error where
  | described (failure : Failure)
  | plain (kind : ErrorKind) (text : String)

namespace Error

/-- A described failure about which nothing else is known. -/
def of (cause : Cause) : Error := .described (.of cause {})

def name : Error → String
  | .described f => f.cause.name
  | .plain kind _ => kind.name

/-- The error inside a message. -/
def text : Error → String
  | .described f => f.cause.message
  | .plain _ text => text

/-- A name that was looked for and is not there. Its text is the quoted name. -/
def missingKey (name : String) : Error := .plain .key (Text.quoted name)

/-- The name of an error after the place where errors of its kind are declared. -/
def fullName : Error → String
  | .described f => "concord.core.errors." ++ f.cause.name
  | .plain .taskTimeout _ => "concord.services.cascade." ++ ErrorKind.taskTimeout.name
  | .plain .cascadeCancelled _ => "concord.services.cascade." ++ ErrorKind.cascadeCancelled.name
  | .plain .cancelled _ => "asyncio.exceptions." ++ ErrorKind.cancelled.name
  | .plain kind _ => kind.name

/-- Why a value cannot be looked up, if it cannot: lists and maps are no keys. -/
def notAKey? : Value → Option Error
  | .list items => some (unhashable (.list items))
  | .map fields => some (unhashable (.map fields))
  | _ => none
where
  unhashable (v : Value) : Error := .plain .type s!"unhashable type: '{v.typeName}'"

/-- The error of writing a text that holds a letter which is refused. The error tells
the halves of characters from there on. -/
def unencodableAt? (isRefused : Text.Letter → Bool) (text : String) : Option Error :=
  let letters := Text.letters text
  let place := (letters.takeWhile (!isRefused ·)).length
  match (letters.drop place).takeWhile Text.isHalf with
  | [] => none
  | [half] =>
    let shown := Text.numbered half
    some (.plain .encoding
      s!"'utf-8' codec can't encode character '{shown}' in position {place}: surrogates not allowed")
  | halves =>
    let last := place + halves.length - 1
    some (.plain .encoding
      (s!"'utf-8' codec can't encode characters in position {place}-{last}: " ++
        "surrogates not allowed"))

/-- The error of writing a text that holds a half of a character. -/
def unencodable? (text : String) : Option Error := unencodableAt? Text.isHalf text

/-- The error of writing a text letter by letter, when one of them is half of a character. -/
def unencodableLetter? (text : String) : Option Error :=
  ((Text.letters text).find? Text.isHalf).bind fun half => unencodable? (Text.ofLetter half)

def badAction (dotted : String) : Error :=
  .plain .value ("expected 'Component.operation', got " ++ Text.quoted dotted)

end Error

/-- Reads an operation written as one text. -/
def ActionRef.parse (dotted : String) : Except Error ActionRef :=
  match parse? dotted with
  | some action => .ok action
  | none => .error (.badAction dotted)

end Choreography
