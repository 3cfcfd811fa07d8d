import Choreography.Text.Case
import Choreography.Text.Numeral

/-! Command lines. Every setting has a flag: two marks and its name. Its value stands in
the next word, or in the same word after an equals sign. A setting of several texts may
have several flags, and each of their values may hold several items. -/

namespace Choreography

/-- How a command line is written. -/
structure CommandLine where
  /-- The flag of each name. -/
  flags : List (String × String)
  /-- What a flag begins with, once or twice. -/
  mark : Char := '-'
  /-- Whether large and small letters of flags are told apart. -/
  exactFlags : Bool := false
  /-- Whether words that mean nothing are passed over. -/
  skipsUnknown : Bool := false
  /-- The word for nothing. -/
  null : String := "null"

namespace CommandLine

/-- What a word on a command line is. -/
inductive Word where
  /-- A flag, perhaps with its value. -/
  | flag (name : String) (value : Option String)
  /-- Something that looks like a flag. -/
  | unknown
  | plain (text : String)

/-- How many marks stand before a flag. -/
def marksBefore (line : CommandLine) (cs : List Char) : Nat :=
  min 2 (cs.takeWhile (· = line.mark)).length

/-- A word with its flag in small letters. What follows the first line of the value is
lost then. -/
def lowered (line : CommandLine) (word : String) : String :=
  let isFlagChar (c : Char) : Bool := c != '=' && !Numeral.isBlank c
  let flag := word.toList.takeWhile isFlagChar
  if line.exactFlags || line.marksBefore flag = 0 || flag.length < 2 then word
  else
    let rest := word.toList.drop flag.length
    Text.inSmallLetters (String.ofList flag) ++ String.ofList (
      rest.takeWhile Numeral.isBlank ++ (rest.dropWhile Numeral.isBlank).takeWhile (· != '\n'))

/-- Whether characters after a minus sign make it a negative number. -/
def isNumber (cs : List Char) : Bool :=
  let fraction := cs.dropWhile Char.isDigit
  match fraction with
  | [] => !cs.isEmpty
  | '.' :: digits => !digits.isEmpty && digits.all Char.isDigit
  | _ => false

def word (line : CommandLine) (text : String) : Word :=
  let cs := text.toList
  let name? (flag : String) : Option String := (line.flags.find? (·.1 == flag)).map (·.2)
  if line.marksBefore cs = 0 then .plain text
  else
    match name? text, name? (String.ofList (cs.takeWhile (· != '='))) with
    | some name, _ => .flag name none
    | none, some name => .flag name (some (String.ofList ((cs.dropWhile (· != '=')).drop 1)))
    | none, none =>
      if cs.length = 1 || (cs.head? = some '-' && isNumber (cs.drop 1)) || cs.contains ' ' then
        .plain text
      else .unknown

/-- The values on a command line, each with its name, unless some word means nothing. -/
def valuesIn? (line : CommandLine) : List Word → Option (List (String × String))
  | [] => some []
  | .flag name (some value) :: rest => (line.valuesIn? rest).map ((name, value) :: ·)
  | .flag name none :: .plain value :: rest => (line.valuesIn? rest).map ((name, value) :: ·)
  | .flag _ none :: _ => none
  | _ :: rest => if line.skipsUnknown then line.valuesIn? rest else none

def values? (line : CommandLine) (words : List String) : Option (List (String × String)) :=
  line.valuesIn? (words.map fun text => line.word (line.lowered text))

/-! Items in a value. They are divided by commas, and the brackets around them may be left
out. An item may be written in JSON, or else be a text without quotes. -/

/-- How many characters an object or an array takes that begins a text, once its first
character has been taken. -/
def nestedLength? (close : Char) (depth : Nat) (isQuoted : Bool) (last : Char) : List Char → Option Nat
  | [] => none
  | c :: rest =>
    let next (depth : Nat) (isQuoted : Bool) : Option Nat :=
      (nestedLength? close depth isQuoted c rest).map (· + 1)
    if c = '"' ∧ last ≠ '\\' then next depth !isQuoted
    else if isQuoted then next depth true
    else if c = '\x7b' ∨ c = '[' then next (depth + 1) false
    else if c = '\x7d' ∨ c = ']' then
      if c = close ∧ depth = 1 then some 1 else next (depth - 1) false
    else next depth false

/-- How many characters stand before a comma outside quotes, unless a quote stays open. -/
def plainLength? (isQuoted : Bool) (last : Option Char) : List Char → Option Nat
  | [] => if isQuoted then none else some 0
  | c :: rest =>
    let isQuoted := isQuoted != (c = '"' && last != some '\\')
    if c = ',' && !isQuoted then some 0 else (plainLength? isQuoted (some c) rest).map (· + 1)

/-- An item in JSON. -/
def itemText (line : CommandLine) (cs : List Char) : String :=
  let text := String.ofList (Numeral.unpadded cs)
  if Numeral.isNumber text then text
  else
    let text := if text = line.null then "null" else text
    if ["true", "false", "null"].contains text || text.startsWith "\"" then text
    else "\"" ++ text ++ "\""

/-- The items in a value. An item is missing where no comma is due. -/
def itemsIn? (line : CommandLine) : Nat → Bool → List Char → Option (List String × Bool)
  | 0, isDue, _ | _, isDue, [] => some ([], isDue)
  | fuel + 1, isDue, cs =>
    let with? (item : String) (rest : List Char) : Option (List String × Bool) :=
      (line.itemsIn? fuel true rest).map fun (items, isDue) => (item :: items, isDue)
    match Numeral.unpadded cs with
    | ',' :: rest =>
      (line.itemsIn? fuel false rest).map fun (items, isLast) =>
        (if isDue then items else "\"\"" :: items, isLast)
    | c :: rest =>
      if c = '\x7b' ∨ c = '[' then
        let close := if c = '[' then ']' else '\x7d'
        (nestedLength? close 1 false c rest).bind fun length =>
          with? (String.ofList (c :: rest.take length)) (rest.drop length)
      else
        (plainLength? false none (c :: rest)).bind fun length =>
          with? (line.itemText ((c :: rest).take length)) ((c :: rest).drop length)
    | [] => with? "\"\"" []

/-- A value without the brackets around its items. -/
def unbracketed (cs : List Char) : List Char :=
  match cs with
  | '[' :: rest => if rest.getLast? = some ']' then Numeral.unpadded rest.dropLast else cs
  | _ => cs

/-- The items in values. -/
def itemsOf? (line : CommandLine) : Bool → List String → Option (List String)
  | _, [] => some []
  | isDue, value :: values => do
    let cs := unbracketed (Numeral.unpadded value.toList)
    let (items, isDue) ← line.itemsIn? (cs.length + 1) isDue cs
    let more ← line.itemsOf? isDue values
    return items ++ (if isDue then [] else ["\"\""]) ++ more

/-- One list in JSON with all items of several values. -/
def merged? (line : CommandLine) (values : List String) : Option String :=
  (line.itemsOf? false values).map fun items => "[" ++ ",".intercalate items ++ "]"

end CommandLine

end Choreography
