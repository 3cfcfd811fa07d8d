import Choreography.Action

/-! Numbers in slots. A set of numbers is kept in a table, where each number has its slot by
its remainder; if that is taken, other slots are tried. The set is met in the order of its
slots, which for few and small numbers is their own order. -/

namespace Choreography

/-- A table of numbers. The number of its slots is a power of two. -/
structure Slots where
  table : Array (Option Int) := Array.replicate 8 none
  filled : Nat := 0

namespace Slots

/-- What is reduced to find the slot of a number: a word of 64 bits. -/
def key (n : Int) : Nat :=
  let size := n.natAbs % (Nat.pow 2 61 - 1)
  if n < 0 then (Nat.pow 2 64 - (if size = 1 then 2 else size)) % Nat.pow 2 64 else size

/-- How many slots after the first one are tried at once, where there are so many. -/
def run : Nat := 9

/-- The slot of a number: the one that holds it, or else an empty one. -/
def find? (table : Array (Option Int)) (n : Int) : Nat → Nat → Nat → Option Nat
  | 0, _, _ => none
  | fuel + 1, start, rest =>
    let tried := if start + run < table.size then run + 1 else 1
    match (List.range tried).find? fun k =>
        let held := table.getD (start + k) none
        held.isNone || held = some n with
    | some k => some (start + k)
    | none =>
      let rest := rest / 32
      find? table n fuel ((start * 5 + 1 + rest) % table.size) rest

/-- Puts a number into a table that has room for it. -/
def put (table : Array (Option Int)) (n : Int) : Array (Option Int) :=
  match find? table n (table.size * 64) (key n % table.size) (key n) with
  | some slot => table.setIfInBounds slot (some n)
  | none => table

/-- The size of a table that is large enough for so many numbers. -/
def sizeOver (numbers : Nat) : Nat → Nat → Nat
  | 0, size => size
  | fuel + 1, size => if size ≤ numbers then sizeOver numbers fuel (2 * size) else size

/-- The numbers in a table, in the order of their slots. -/
def numbers (s : Slots) : List Int := s.table.toList.filterMap id

/-- Adds a number. When three of five slots are taken, the numbers move to a larger table. -/
def add (s : Slots) (n : Int) : Slots :=
  if s.numbers.contains n then s
  else
    let table := put s.table n
    let filled := s.filled + 1
    if filled * 5 < (table.size - 1) * 3 then { table, filled }
    else
      let wanted := if 50000 < filled then filled * 2 else filled * 4
      let larger := Array.replicate (sizeOver wanted wanted 8) none
      { table := (table.toList.filterMap id).foldl put larger, filled }

/-- Distinct numbers, in the order in which a set of them is met. -/
def order (ns : List Int) : List Int := (ns.foldl add {}).numbers

end Slots

end Choreography
