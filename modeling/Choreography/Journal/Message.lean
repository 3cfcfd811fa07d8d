import Choreography.Journal.Directive

/-! Messages with places. A directive in a message is the place of a value, of the next
one or of one that it names, and two percent signs are one. A message that comes with
no values is taken as it is. -/

namespace Choreography.Message

def tooFew : Error := .plain .type "not enough arguments for format string"

def tooMany : Error := .plain .type "not all arguments converted during string formatting"

def incomplete : Error := .plain .value "incomplete format"

/-- The values that are still to be placed. -/
inductive Supply where
  | each (values : List Value)
  /-- Values by name, and what is taken when none is named. -/
  | named (fields : Fields) (next : Option Value)

/-- A map that is the only value gives its values by name. -/
def Supply.ofValues : List Value → Supply
  | [.map (field :: fields)] => .named (field :: fields) (some (.map (field :: fields)))
  | values => .each values

def Supply.take : Supply → Except Error (Value × Supply)
  | .each (v :: values) => .ok (v, .each values)
  | .named fields (some v) => .ok (v, .named fields none)
  | .each [] | .named _ none => .error tooFew

/-- What is left of a message, and of the values. -/
structure State where
  rest : List Char
  supply : Supply

/-- A name up to the parenthesis that closes it, and the characters after it. -/
def readName : Nat → List Char → List Char → Option (String × List Char)
  | _, _, [] => none
  | deep, read, '(' :: rest => readName (deep + 1) ('(' :: read) rest
  | 0, read, ')' :: rest => some (String.ofList read.reverse, rest)
  | deep + 1, read, ')' :: rest => readName deep (')' :: read) rest
  | deep, read, c :: rest => readName deep (c :: read) rest

/-- The value that a directive names becomes the next one. -/
def readKey (s : State) : Except Error State :=
  match s.rest, s.supply with
  | '(' :: rest, .named fields _ =>
    match readName 0 [] rest with
    | none => .error (.plain .value "incomplete format key")
    | some (name, rest) =>
      match Fields.get? fields name with
      | none => .error (.missingKey name)
      | some v => .ok { rest, supply := .named fields (some v) }
  | '(' :: _, .each _ => .error (.plain .type "format requires a mapping")
  | _, _ => .ok s

def readFlags (d : Directive) : List Char → Directive × List Char
  | [] => (d, [])
  | c :: rest =>
    match d.flagged? c with
    | some d => readFlags d rest
    | none => (d, c :: rest)

def numberOf (digits : List Char) : Nat :=
  digits.foldl (fun n c => n * 10 + (c.toNat - '0'.toNat)) 0

/-- A number of a directive: what it is called, how many bits it has with its sign, and
the type that errors name for it. -/
structure Measure where
  name : String
  bits : Nat
  type : String

def Measure.width : Measure := ⟨"width", 64, "ssize_t"⟩

def Measure.precision : Measure := ⟨"precision", 32, "int"⟩

def Measure.holds (m : Measure) (n : Int) : Bool := -(Int.pow 2 (m.bits - 1)) ≤ n && n < Int.pow 2 (m.bits - 1)

/-- A number in a directive: its digits, or a star that takes it from the values. -/
def readNumber (m : Measure) (s : State) : Except Error (Option Int × State) :=
  match s.rest with
  | '*' :: rest => do
    let (v, supply) ← s.supply.take
    match Directive.whole? v with
    | some n =>
      if m.holds n then return (some n, { rest, supply })
      else throw (.plain .overflow s!"Python int too large to convert to C {m.type}")
    | none => throw (.plain .type "* wants int")
  | cs =>
    match cs.takeWhile Char.isDigit with
    | [] => .ok (none, s)
    | digits =>
      if m.holds (numberOf digits) then
        .ok (some (numberOf digits), { s with rest := cs.dropWhile Char.isDigit })
      else .error (.plain .value (m.name ++ " too big"))

/-- A width. A negative one pads to the other side. -/
def readWidth (d : Directive) (s : State) : Except Error (Directive × State) := do
  let (n, s) ← readNumber .width s
  let n := n.getD 0
  return ({ d with width := n.natAbs, toTheLeft := d.toTheLeft || n < 0 }, s)

/-- A precision after a point. Without a number it is zero. -/
def readPrecision (d : Directive) (s : State) : Except Error (Directive × State) :=
  match s.rest with
  | '.' :: rest => do
    let (n, s) ← readNumber .precision { s with rest }
    return ({ d with precision := some (n.getD 0).toNat }, s)
  | _ => .ok (d, s)

/-- A letter that says how long a number is, which does not matter. -/
def skipLength : List Char → List Char
  | c :: rest => if c = 'h' || c = 'l' || c = 'L' then rest else c :: rest
  | [] => []

/-- The text of the directive after a percent sign in a message of `length` letters. -/
def readDirective (length : Nat) (s : State) : Except Error (String × State) := do
  let s ← readKey s
  let (d, rest) := readFlags { letter := '%' } s.rest
  let (d, s) ← readWidth d { s with rest }
  let (d, s) ← readPrecision d s
  match skipLength s.rest with
  | [] => throw incomplete
  | letter :: rest =>
    let (v, supply) ← s.supply.take
    if { d with letter }.isEndless then throw (.plain .memory "")
    match { d with letter }.show? v with
    | some shown => return (← shown, { rest, supply })
    | none =>
      let letters := Text.lettersOf (letter :: rest)
      let code := String.ofList (Nat.toDigits 16 (letters.headD 0))
      let shown := if 31 ≤ letter.toNat ∧ letter.toNat ≤ 126 then letter else '?'
      let place := length - letters.length
      throw (.plain .value
        s!"unsupported format character '{shown}' (0x{code}) at index {place}")

/-- Fills the places of what is left of a message of `length` letters. Every turn takes
at least one character. -/
def fillFrom (length : Nat) : Nat → State → Except Error (String × Supply)
  | 0, s => .ok ("", s.supply)
  | fuel + 1, s =>
    match s.rest with
    | [] => .ok ("", s.supply)
    | '%' :: '%' :: rest => do
      let (more, supply) ← fillFrom length fuel { s with rest }
      return ("%" ++ more, supply)
    | '%' :: rest => do
      let (text, s) ← readDirective length { s with rest }
      let (more, supply) ← fillFrom length fuel s
      return (text ++ more, supply)
    | c :: rest => do
      let (more, supply) ← fillFrom length fuel { s with rest }
      return (c.toString ++ more, supply)

/-- A message with its values, which must all find a place unless they have names. -/
def fill (message : String) (values : List Value) : Except Error String :=
  match values with
  | [] => .ok message
  | _ => do
    let cs := message.toList
    let (text, supply) ← fillFrom (Text.size message) cs.length { rest := cs, supply := .ofValues values }
    match supply with
    | .each (_ :: _) => throw tooMany
    | _ => return text

end Choreography.Message
