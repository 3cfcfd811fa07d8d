import Choreography.Error

/-! The environment: names and texts that a process is given by its surroundings. Names
are not empty and hold no equals sign, and nothing holds a null character. Halves of
characters can be kept if they stand for single octets. -/

namespace Choreography

abbrev Environment := List (String × String)

namespace Environment

/-- Whether a letter stands for an octet that is no text. -/
def isOctet (letter : Text.Letter) : Bool := 0xDC80 ≤ letter && letter < 0xDD00

/-- The text of a value, which has to be one. -/
def textOf : Value → Except Error String
  | .text text =>
    match Error.unencodableAt? (fun letter => Text.isHalf letter && !isOctet letter) text with
    | some error => .error error
    | none => .ok text
  | value => .error (.plain .type s!"str expected, not {value.typeName}")

/-- One entry of an environment. -/
def entry (name : String) (value : Value) : Except Error (String × String) := do
  let name ← textOf (.text name)
  let text ← textOf value
  if (name ++ text).contains '\x00' then throw (.plain .value "embedded null byte")
  if name.contains '=' then throw (.plain .value "illegal environment variable name")
  if name.isEmpty then throw (.plain .system "[Errno 22] Invalid argument")
  return (name, text)

/-- The environment with some entries. -/
def ofFields (fields : Fields) : Except Error Environment :=
  fields.mapM fun (name, value) => entry name value

end Environment

end Choreography
