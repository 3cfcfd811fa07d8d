import Choreography.Error
import Choreography.Text.Numeral

/-! Shapes of paths. A shape is a text with places, each of which has a name and says
what it may hold. -/

namespace Choreography.Http

/-- What a place in a path may hold. -/
inductive PlaceKind where
  /-- Something without a slash. -/
  | segment
  /-- Anything on one line, perhaps nothing. -/
  | line
  | digits
  /-- Digits, perhaps with a point and more digits after them. -/
  | decimal
  /-- A universally unique identifier, with or without its hyphens. -/
  | uuid
deriving DecidableEq

def PlaceKind.ofName? : String → Option PlaceKind
  | "str" => some .segment
  | "path" => some .line
  | "int" => some .digits
  | "float" => some .decimal
  | "uuid" => some .uuid
  | _ => none

/-- The numbers from `most` down to `least`. -/
def downFrom (most least : Nat) : List Nat :=
  ((List.range (most + 1)).filter (least ≤ ·)).reverse

/-- How many characters begin a text that all pass a test. -/
def run (passes : Char → Bool) (cs : List Char) : Nat := (cs.takeWhile passes).length

def isHexDigit (c : Char) : Bool :=
  c.isDigit || ('a' ≤ c && c ≤ 'f') || ('A' ≤ c && c ≤ 'F')

/-- The length of groups of hexadecimal digits, set apart by a hyphen or by nothing. -/
def uuidLength? : List Nat → List Char → Option Nat
  | [], _ => some 0
  | group :: groups, cs =>
    if (cs.take group).length = group && (cs.take group).all isHexDigit then
      let rest := cs.drop group
      let hyphen := if !groups.isEmpty && rest.head? = some '-' then 1 else 0
      (uuidLength? groups (rest.drop hyphen)).map (group + hyphen + ·)
    else none

namespace PlaceKind

/-- How many of the next characters a place may take, in the order of its liking. -/
def lengths (kind : PlaceKind) (cs : List Char) : List Nat :=
  match kind with
  | segment => downFrom (run (· != '/') cs) 1
  | line => downFrom (run (· != '\n') cs) 0
  | digits => downFrom (run Char.isDigit cs) 1
  | decimal =>
    (downFrom (run Char.isDigit cs) 1).flatMap fun whole =>
      match cs.drop whole with
      | '.' :: rest =>
        ((downFrom (run Char.isDigit rest) 1).map fun more => whole + 1 + more) ++ [whole]
      | _ => [whole]
  | uuid => (uuidLength? [8, 4, 4, 4, 12] cs).toList

end PlaceKind

inductive PathPart where
  | literal (c : Char)
  | place (name : String) (kind : PlaceKind)
deriving DecidableEq

abbrev PathShape := List PathPart

namespace PathShape

/-- The shape of a text without places. -/
def ofText (text : String) : PathShape := text.toList.map .literal

/-- A line break at the very end of a path does not count. -/
def isEnd (cs : List Char) : Bool := cs = [] || cs = ['\n']

/-- What the places of a shape hold when it fits a path, the first way in which it does. -/
def fit? : PathShape → List Char → Option (List (String × String))
  | [], cs => if isEnd cs then some [] else none
  | .literal c :: parts, cs =>
    match cs with
    | d :: rest => if c = d then fit? parts rest else none
    | [] => none
  | .place name kind :: parts, cs =>
    (kind.lengths cs).findSome? fun length =>
      (fit? parts (cs.drop length)).map ((name, String.ofList (cs.take length)) :: ·)

def isNameStart (c : Char) : Bool := c.isAlpha || c = '_'

def isNamePart (c : Char) : Bool := c.isAlphanum || c = '_'

/-- A name, and the characters after it. -/
def name? : List Char → Option (String × List Char)
  | c :: rest =>
    if isNameStart c then
      some (String.ofList (c :: rest.takeWhile isNamePart), rest.dropWhile isNamePart)
    else none
  | [] => none

/-- The name of a place and of its kind, between braces, and the characters after it. -/
def placeAt? (cs : List Char) : Option (String × String × List Char) := do
  let (name, rest) ← name? cs
  match rest with
  | '\x7d' :: after => return (name, "str", after)
  | ':' :: rest =>
    let (kind, rest) ← name? rest
    match rest with
    | '\x7d' :: after => return (name, kind, after)
    | _ => none
  | _ => none

/-- Reads the parts of a shape, of which every one takes a character at least. -/
def readFrom : Nat → List Char → Except Error PathShape
  | 0, _ | _, [] => .ok []
  | fuel + 1, c :: rest =>
    match if c = '\x7b' then placeAt? rest else none with
    | none => do return .literal c :: (← readFrom fuel rest)
    | some (name, kind, after) =>
      match PlaceKind.ofName? kind with
      | none => .error (.plain .assertion s!"Unknown path convertor '{kind}'")
      | some kind => do return .place name kind :: (← readFrom fuel after)

def places (shape : PathShape) : List (String × PlaceKind) :=
  shape.filterMap fun part => match part with
    | .place name kind => some (name, kind)
    | .literal _ => none

def names (shape : PathShape) : List String := (places shape).map (·.1)

/-- What a place may not hold although it fits there: the first number with too many
digits. -/
def overlong? (shape : PathShape) (held : List (String × String)) : Option Error :=
  ((places shape).zip held).findSome? fun ((_, kind), (_, text)) =>
    if kind = .digits && Numeral.mostDigits < text.length then
      some (.plain .value (Numeral.tooManyDigits text.length))
    else none

/-- A shape with the name of every place between braces. -/
def written (shape : PathShape) : List Char :=
  shape.flatMap fun part => match part with
    | .literal c => [c]
    | .place name _ => '\x7b' :: name.toList ++ ['\x7d']

/-- The texts between braces, each from an opening one to the next closing one on its
line. The characters since an opening brace are kept, the last first. -/
def bracedFrom : Option (List Char) → List Char → List String
  | _, [] => []
  | _, '\n' :: rest => bracedFrom none rest
  | none, c :: rest => bracedFrom (if c = '\x7b' then some [] else none) rest
  | some inside, c :: rest =>
    if c = '\x7d' then String.ofList inside.reverse :: bracedFrom none rest
    else bracedFrom (some (c :: inside)) rest

/-- Whether the written shape names a place. A brace that opens before the place hides
its name. -/
def tells (shape : PathShape) (name : String) : Bool :=
  (bracedFrom none (written shape)).contains name

/-- The names that occur more than once, each once and in their order. -/
def repeated (names : List String) : List String :=
  let twice := names.filter fun name => 1 < names.count name
  (twice.foldl (fun seen name => if seen.contains name then seen else seen ++ [name]) []).mergeSort
    fun a b => a ≤ b

/-- The shape that a text writes, in which no two places have one name. -/
def read (text : String) : Except Error PathShape := do
  let shape ← readFrom text.length text.toList
  match repeated (names shape) with
  | [] => return shape
  | names =>
    let ending := if names.length = 1 then "" else "s"
    let listed := ", ".intercalate names
    throw (.plain .value s!"Duplicated param name{ending} {listed} at path {text}")

end PathShape

end Choreography.Http
