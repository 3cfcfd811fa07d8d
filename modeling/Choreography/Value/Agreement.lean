import Choreography.Value

/-! When two values count as equal. Numbers of every kind are compared by their
exact size, so truth values count as 0 and 1, and a nan agrees with nothing, not
even itself. Maps agree when they have the same names and agree at each, in any
order. Inside a list or a map one and the same nan is accepted, as it is the
same thing met again. -/

namespace Choreography

/-- The exact size of a number, in units of 2 ^ -1074. -/
inductive Magnitude where
  | finite (units : Int)
  | infinite (negative : Bool)
deriving DecidableEq

namespace Value

/-- The size of a number. A nan has none, nor has a value that is no number. -/
def magnitude? : Value → Option Magnitude
  | .bool b => some (.finite (if b then Int.pow 2 1074 else 0))
  | .int n => some (.finite (n * Int.pow 2 1074))
  | .float x =>
    if x.isNan then none
    else if x.isInfinite then some (.infinite x.isNegative)
    else some (.finite x.units)
  | _ => none

/-- Numbers agree by size, texts letter by letter, and null with itself. -/
def leafAgrees : Value → Value → Bool
  | .null, .null => true
  | .text s, .text t => s == t
  | v, w =>
    match v.magnitude?, w.magnitude? with
    | some m, some n => m == n
    | _, _ => false

/-- The same nan, met again. -/
def sameNan : Value → Value → Bool
  | .float x, .float y => x.isNan && x == y
  | _, _ => false

mutual

/-- Whether two values count as equal. -/
def agrees : Value → Value → Bool
  | .list vs, .list ws => agreesEach vs ws
  | .map fs, .map gs =>
    fs.all (fun f => Fields.has gs f.1) && gs.all (fun g => Fields.has fs g.1) && agreesAt fs gs
  | v, w => leafAgrees v w
termination_by structural v => v

/-- Item by item, with the same nan accepted. -/
def agreesEach : List Value → List Value → Bool
  | [], [] => true
  | v :: vs, w :: ws => (sameNan v w || v.agrees w) && agreesEach vs ws
  | _, _ => false
termination_by structural vs => vs

/-- At every name that both have, with the same nan accepted. -/
def agreesAt : List (String × Value) → List (String × Value) → Bool
  | [], _ => true
  | (name, v) :: fs, gs =>
    gs.all (fun g => g.1 != name || sameNan v g.2 || v.agrees g.2) && agreesAt fs gs
termination_by structural fs => fs

end

/-- Whether two values that stand in a collection count as equal there. -/
def same (v w : Value) : Bool := sameNan v w || v.agrees w

end Value

/-- Whether two sets of named values have the same names and the same values. -/
def Fields.agree (fs gs : Fields) : Bool := (Value.map fs).agrees (.map gs)

end Choreography
