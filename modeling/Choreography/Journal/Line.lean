import Choreography.Journal
import Choreography.Json.Writer
import Choreography.Text.Case

/-! Log records as lines of text, and the levels by which they are chosen. -/

namespace Choreography

/-- How a log is written. -/
inductive LineFormat where
  | json
  | plain
deriving DecidableEq

/-- Only one word asks for JSON. -/
def LineFormat.ofText (text : String) : LineFormat := if text = "json" then .json else .plain

/-- What is told of an error that a record is about. -/
def Error.line (e : Error) : String :=
  if e.text.isEmpty then e.fullName else s!"{e.fullName}: {e.text}"

namespace LogRecord

/-- The fields that a line shows, in their order. -/
def shownFields : List String :=
  ["rule", "invocation_id", "cascade_root", "depth", "error_code", "component", "operation",
   "path", "fault_kind"]

/-- The fields of a record that are shown: known ones, unless they are null. -/
def shown (r : LogRecord) : Fields :=
  shownFields.filterMap fun name =>
    match Fields.get? r.extra name with
    | none | some .null => none
    | some value => some (name, value)

/-- A record as one JSON object. -/
def json (r : LogRecord) (time : String) (about : Option Error) : String :=
  Json.write (.map
    ([("timestamp", .text time), ("level", .text r.level.name), ("logger", .text r.logger),
      ("message", .text r.message)] ++ r.shown ++
     (about.map fun e => ("exception", Value.text e.line)).toList))

/-- A record as a sentence. -/
def plain (r : LogRecord) (time : String) : String :=
  s!"{time} {r.level.name} {r.logger} — {r.message}"

def line (r : LogRecord) (format : LineFormat) (time : String) : String :=
  match format with
  | .json => r.json time none
  | .plain => r.plain time

end LogRecord

namespace Level

/-- The weight of a level: a log shows records at least as heavy as its threshold. -/
def weight : Level → Nat
  | .unset => 0
  | .debug => 10
  | .info => 20
  | .warning => 30
  | .error => 40
  | .critical => 50

/-- The level that a value names. -/
def named : Value → Except Error Level
  | .text name =>
    match ofName? name with
    | some level => .ok level
    | none => .error (.plain .attribute "")
  | value => .error (.plain .type s!"attribute name must be string, not '{value.typeName}'")

/-- The threshold that a word asks for, in large or small letters. An unknown word asks
for information and all that is heavier. Two words stand for something that is no level. -/
def threshold (word : String) : Except Error Nat :=
  match Text.inCapitals word with
  | "BASIC_FORMAT" =>
    .error (.plain .value "Unknown level: '%(levelname)s:%(name)s:%(message)s'")
  | "_STYLES" =>
    let style (mark name layout : String) : String :=
      s!"'{mark}': (<class 'logging.{name}Style'>, '{layout}')"
    .error (.plain .type ("Level not an integer or a valid string: " ++ bracketed "\x7b"
      [style "%" "Percent" "%(levelname)s:%(name)s:%(message)s",
       style "\x7b" "StrFormat" "\x7blevelname\x7d:\x7bname\x7d:\x7bmessage\x7d",
       style "$" "StringTemplate" "$\x7blevelname\x7d:$\x7bname\x7d:$\x7bmessage\x7d"]
      "\x7d"))
  | name => .ok ((ofName? name).getD .info).weight

end Level

end Choreography
