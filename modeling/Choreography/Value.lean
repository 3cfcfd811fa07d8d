/-! Values are what components exchange: the inputs and outputs of operations,
the variables a rule binds and the literals its patterns name. Maps keep the
order in which their names were first given, and each name occurs once in a map
built with the operations below. -/

namespace Choreography

/-- A binary64 number, kept as its bit pattern. Two nans are the same number
exactly when their patterns are equal, so a nan can be followed through a run. -/
structure Double where
  bits : UInt64
deriving DecidableEq, Inhabited

namespace Double

def isNegative (x : Double) : Bool := x.bits.toNat / Nat.pow 2 63 % 2 == 1

/-- The biased exponent, below 2048. -/
def exponent (x : Double) : Nat := x.bits.toNat / Nat.pow 2 52 % 2048

/-- The stored fraction, below 2 ^ 52. -/
def fraction (x : Double) : Nat := x.bits.toNat % Nat.pow 2 52

def isNan (x : Double) : Bool := x.exponent == 2047 && x.fraction != 0

def isInfinite (x : Double) : Bool := x.exponent == 2047 && x.fraction == 0

def isFinite (x : Double) : Bool := x.exponent != 2047

/-- A finite number is ± `significand` · 2 ^ `scale` smallest units, where the
smallest unit is 2 ^ -1074. -/
def significand (x : Double) : Nat :=
  if x.exponent = 0 then x.fraction else Nat.pow 2 52 + x.fraction

def scale (x : Double) : Nat := x.exponent - 1

/-- A finite number counted in smallest units. -/
def units (x : Double) : Int :=
  let size : Int := (x.significand * Nat.pow 2 x.scale : Nat)
  if x.isNegative then -size else size

/-- Assembles a number from its sign, biased exponent and fraction. -/
def ofParts (negative : Bool) (exponent fraction : Nat) : Double :=
  ⟨UInt64.ofNat ((if negative then Nat.pow 2 63 else 0) + exponent * Nat.pow 2 52 + fraction)⟩

def infinite (negative : Bool) : Double := ofParts negative 2047 0

/-- The quiet nan that carries `mark` in its fraction. -/
def nan (mark : Nat) : Double := ofParts false 2047 (Nat.pow 2 51 + mark % Nat.pow 2 51)

end Double

inductive Value where
  | null
  | bool (b : Bool)
  | int (n : Int)
  | float (x : Double)
  | text (s : String)
  | list (items : List Value)
  | map (fields : List (String × Value))
deriving Inhabited

/-- Named values in the order in which the names were first given. -/
abbrev Fields := List (String × Value)

namespace Fields

/-- The value of the first entry called `name`. -/
def get? (fields : Fields) (name : String) : Option Value := List.lookup name fields

def has (fields : Fields) (name : String) : Bool := (get? fields name).isSome

def names (fields : Fields) : List String := fields.map (·.1)

/-- Gives `name` a new value: in its old place if it has one, else at the end. -/
def set : Fields → String → Value → Fields
  | [], name, value => [(name, value)]
  | (key, old) :: rest, name, value =>
    if key = name then (key, value) :: rest else (key, old) :: set rest name value

/-- Gives every name of `incoming` its value, one after the other. -/
def merge (fields incoming : Fields) : Fields :=
  incoming.foldl (fun acc entry => set acc entry.1 entry.2) fields

def erase (fields : Fields) (name : String) : Fields := fields.filter (·.1 != name)

/-- Entries in any order and number, of which the last for a name counts. -/
def ofList (entries : List (String × Value)) : Fields := merge [] entries

end Fields

namespace Value

/-- The entries of a map; nothing else has entries. -/
def fields? : Value → Option Fields
  | .map fields => some fields
  | _ => none

/-- What a condition makes of a value: zero and empty values count as false. -/
def isTruthy : Value → Bool
  | .null => false
  | .bool b => b
  | .int n => n != 0
  | .float x => x.isNan || x.significand != 0 || x.isInfinite
  | .text s => s != ""
  | .list items => !items.isEmpty
  | .map fields => !fields.isEmpty

end Value

end Choreography
