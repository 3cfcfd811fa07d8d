import Choreography.Journal
import Choreography.Json.Reader
import Choreography.Json.Standard
import Choreography.Json.Writer
import Choreography.Text.Utf8

/-! Replies of the server. A failure that the library describes is told; any other
error is logged and kept from the caller. -/

namespace Choreography.Http

structure Reply where
  status : Int
  /-- The body in JSON, if there is any. -/
  body : Option Value

def Reply.ofFields (status : Int) (fields : Fields) : Reply := ⟨status, some (.map fields)⟩

/-- A short notice, such as that there is no route. -/
def Reply.notice (status : Int) (text : String) : Reply := .ofFields status [("detail", .text text)]

/-- The body cannot be read, though it may well be JSON. -/
def unreadable : Reply := .notice 400 "There was an error parsing the body"

/-! What can be sent. Names that begin in a certain way are kept back, and what is left
has to be standard JSON and without halves of characters. -/

/-- Whether a name may be sent. -/
def isSent (name : String) : Bool := !name.startsWith "_sa"

/-- A reply, or the error when its body cannot be encoded. -/
def Reply.encoded (r : Reply) : Except Error Reply :=
  match r.body.bind fun body => Error.unencodable? (Json.writeIn Json.compact body) with
  | some error => .error error
  | none => .ok r

/-- The reply that the answer to a request makes. -/
def Reply.ofAnswer (answer : Fields) : Except Error Reply :=
  let body := Fields.sift isSent answer
  if Fields.areStandard body then
    Reply.encoded (.ofFields (if isErrorOutput answer then 400 else 200) body)
  else .error (.plain .value "Out of range float values are not JSON compliant")

/-- How many values may be nested in each other when a cascade is shown. -/
def deepestShown : Nat := 255

mutual

/-- Why a value cannot be shown, if it cannot: some text in it cannot be encoded. -/
def unshowable? : Value → Option Error
  | .text s => Error.unencodable? s
  | .list items => unshowableAmong? items
  | .map fields => unshowableIn? fields
  | _ => none
termination_by structural v => v

def unshowableAmong? : List Value → Option Error
  | [] => none
  | v :: vs => (unshowable? v).orElse fun _ => unshowableAmong? vs
termination_by structural vs => vs

def unshowableIn? : List (String × Value) → Option Error
  | [] => none
  | (_, v) :: rest => (unshowable? v).orElse fun _ => unshowableIn? rest
termination_by structural fs => fs

end

mutual

/-- A value all of whose names can be encoded. Of two that become the same name the later
counts. -/
def repaired : Value → Value
  | .list items => .list (repairedItems items)
  | .map fields => .map (Fields.ofList (repairedFields fields))
  | v => v
termination_by structural v => v

def repairedItems : List Value → List Value
  | [] => []
  | v :: vs => repaired v :: repairedItems vs
termination_by structural vs => vs

def repairedFields : List (String × Value) → List (String × Value)
  | [] => []
  | (name, v) :: rest => (Text.Utf8.repaired name, repaired v) :: repairedFields rest
termination_by structural fs => fs

end

/-- Named values as they are shown, or the error when they cannot be. -/
def shownFields (fields : Fields) : Except Error Value :=
  let fail (error : Error) : Except Error Value :=
    .error (.plain .serialization s!"Error serializing to JSON: {error.name}: {error.text}")
  if deepestShown < Fields.height fields then
    fail (.plain .value "Circular reference detected (depth exceeded)")
  else
    match unshowableIn? fields with
    | some error => fail error
    | none => .ok (repaired (Value.map fields).standard)

/-- A part of a request that is not what it should be. -/
structure InvalidPart where
  kind : String
  /-- Where the part is, from the outside in. -/
  place : List Value
  message : String
  input : Value
  /-- What is wrong, if there is more to say. -/
  reason : Option String := none

namespace InvalidPart

/-- The body is no JSON. -/
def notJson (refusal : Json.Refusal) : InvalidPart where
  kind := "json_invalid"
  place := [.text "body", .ofNat refusal.offset]
  message := "JSON decode error"
  input := .map []
  reason := some refusal.objection.message

/-- The body is JSON, but no object. -/
def notAnObject (body : Value) : InvalidPart where
  kind := "dict_type"
  place := [.text "body"]
  message := "Input should be a valid dictionary"
  input := body

/-- The query lacks a parameter. -/
def missing (name : String) : InvalidPart where
  kind := "missing"
  place := [.text "query", .text name]
  message := "Field required"
  input := .null

/-- A cascade is asked for by something else than a number. -/
def notANumber (root : String) : InvalidPart where
  kind := "int_parsing"
  place := [.text "path", .text "root"]
  message := "Input should be a valid integer, unable to parse string as an integer"
  input := .text root

/-- A cascade is asked for by too long a number. -/
def tooLong (root : String) : InvalidPart :=
  { notANumber root with
    kind := "int_parsing_size"
    message := "Unable to parse input string as an integer, exceeded maximum size" }

def text (p : InvalidPart) : String :=
  let entry (name shown : String) := Text.quoted name ++ ": " ++ shown
  let reason := p.reason.map fun r =>
    entry "ctx" (bracketed "\x7b" [entry "error" (Text.quoted r)] "\x7d")
  let place := tupleText (p.place.map Value.exactText)
  bracketed "\x7b"
    ([entry "type" (Text.quoted p.kind), entry "loc" place, entry "msg" (Text.quoted p.message),
      entry "input" p.input.exactText] ++ reason.toList) "\x7d"

/-- What a reply says of a part. -/
def details (p : InvalidPart) : Value :=
  .map [("field", .text (".".intercalate (p.place.map Value.plainText))),
    ("message", .text p.message), ("type", .text p.kind)]

end InvalidPart

/-- What the log says of a request with invalid parts. -/
def invalidNote (parts : List InvalidPart) (path : String) : LogRecord where
  level := .warning
  logger := "concord.api.error_handlers"
  message := s!"Validation error on {path}: " ++ bracketed "[" (parts.map (·.text)) "]"

def invalidReply (parts : List InvalidPart) : Reply :=
  .ofFields 400 [("error", .map
    [("code", .text "VALIDATION_ERROR"), ("message", .text "Invalid request data"),
     ("category", .text Category.validation.name), ("severity", .text Severity.error.name),
     ("details", .list (parts.map (·.details)))])]

/-- What the log says of a described failure. -/
def failureNote (f : Failure) (path : String) : LogRecord where
  level := if f.cause.status < 500 then .warning else .error
  logger := "concord.api.error_handlers"
  message := "ConcordError: " ++ f.cause.message
  extra := [("error_code", .text f.cause.code), ("path", .text path)]

def failureReply (f : Failure) (time : String) : Reply := ⟨f.cause.status, some (f.response time)⟩

/-- What the log says of any other error. -/
def unhandledNote (e : Error) (path : String) : LogRecord where
  level := .error
  logger := "concord.api.error_handlers"
  message := s!"Unhandled exception on {path}: {e.text}"
  raised := some e.name

/-- What the caller is told of any other error. -/
def unhandledReply : Reply :=
  .ofFields 500 [("error", .map
    [("code", .text "INTERNAL_ERROR"), ("message", .text "An unexpected error occurred"),
     ("category", .text Category.internal.name), ("severity", .text Severity.critical.name)])]

end Choreography.Http
