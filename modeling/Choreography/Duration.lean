import Choreography.Value.Text

/-! Lengths of time. A duration is a number of seconds as it was given, because
messages show it that way; the clock counts it in nanoseconds. -/

namespace Choreography

/-- A point in time, in nanoseconds since the clock began. -/
abbrev Instant := Int

/-- A number of seconds, whole or binary. -/
inductive Seconds where
  | whole (n : Int)
  | binary (x : Double)
deriving DecidableEq, Inhabited

namespace Seconds

/-- The number of seconds. -/
def value : Seconds → Value
  | .whole n => .int n
  | .binary x => .float x

def text (s : Seconds) : String := s.value.plainText

/-- The length on the clock, to the nearest nanosecond. The shortest length is one
nanosecond, and a nan is no length at all. -/
def nanoseconds : Seconds → Int
  | .whole n => n * 1000000000
  | .binary x =>
    let nearest := (x.units * 2000000000 + Int.pow 2 1074) / Int.pow 2 1075
    if x.isNan then 0 else if 0 < x.units then max 1 nearest else nearest

end Seconds

/-- A point in time or a length of it in milliseconds, a half to the even neighbour. -/
def Instant.milliseconds (t : Instant) : Int :=
  let below := t / 1000000
  let rest := t % 1000000
  if 500000 < rest || (rest == 500000 && below % 2 == 1) then below + 1 else below

end Choreography
