import Choreography.Text.Letter

/-! Labels in ASCII. The letters of a label that are in ASCII come first. The others follow
as numbers, each of which tells how many places and letters lie between one insertion and
the next. A number is written with its smallest digits first; the digits have thresholds,
below which a digit is the last one, and these follow the size of the numbers before. -/

namespace Choreography.Http.Label.Punycode

open Text (Letter)

def base : Nat := 36

/-- The first letter that is not in ASCII. -/
def firstLetter : Letter := 128

def firstBias : Nat := 72

/-- The threshold of a digit, counted from 0. -/
def threshold (bias place : Nat) : Nat := max 1 (min 26 (base * (place + 1) - bias))

/-- The number of a digit, if it is one: letters come before figures. -/
def digit? (c : Char) : Option Nat :=
  if c.isAlpha then some (c.toLower.toNat - 'a'.toNat)
  else if c.isDigit then some (c.toNat - '0'.toNat + 26)
  else none

def digit (number : Nat) : Char :=
  if number < 26 then Char.ofNat ('a'.toNat + number) else Char.ofNat ('0'.toNat + (number - 26))

/-- Takes a number down until its digits are few, and counts the steps. -/
def shrunk : Nat → Nat → Nat → Nat × Nat
  | 0, number, steps => (number, steps)
  | fuel + 1, number, steps =>
    if number ≤ 455 then (number, steps) else shrunk fuel (number / 35) (steps + 1)

/-- The bias after a number, when a label has so many letters. -/
def adapted (number size : Nat) (isFirst : Bool) : Nat :=
  let number := if isFirst then number / 700 else number / 2
  let number := number + number / size
  let (number, steps) := shrunk number number 0
  base * steps + base * number / (number + 38)

/-- The digits of a number from a place on. -/
def digits (bias : Nat) : Nat → Nat → Nat → List Char
  | 0, _, _ => []
  | fuel + 1, place, number =>
    let least := threshold bias place
    if number < least then [digit number]
    else
      digit (least + (number - least) % (base - least)) ::
        digits bias fuel (place + 1) ((number - least) / (base - least))

/-- What is known while letters are written: the number so far, the bias, how many letters
are written, and the digits. -/
structure Writing where
  number : Nat := 0
  bias : Nat := firstBias
  size : Nat
  isFirst : Bool := true
  written : List Char := []

/-- Writes all places of one letter of a label. -/
def Writing.letter (label : List Letter) (letter : Letter) (w : Writing) : Writing :=
  label.foldl (fun w other =>
    if other < letter then { w with number := w.number + 1 }
    else if other = letter then
      { number := 0
        bias := adapted w.number (w.size + 1) w.isFirst
        size := w.size + 1
        isFirst := false
        written := w.written ++ digits w.bias (w.number + 1) 0 w.number }
    else w) w

/-- A label in ASCII, without the mark that it is one. -/
def encode (label : List Letter) : List Char :=
  let plain := label.filter (· < firstLetter)
  let others := ((label.filter (firstLetter ≤ ·)).mergeSort).eraseDups
  let (writing, _) := others.foldl (fun (w, next) letter =>
    let w : Writing := { w with number := w.number + (letter - next) * (w.size + 1) }
    let w := w.letter label letter
    ({ w with number := w.number + 1 }, letter + 1))
    (({ size := plain.length } : Writing), firstLetter)
  let plain := plain.map Char.ofNat
  (if plain.isEmpty then [] else plain ++ ['-']) ++ writing.written

/-- Reads a number, and gives what comes after it. -/
def number? (bias : Nat) : Nat → Nat → List Char → Option (Nat × List Char)
  | _, _, [] => none
  | place, weight, c :: rest => do
    let digit ← digit? c
    let least := threshold bias place
    if digit < least then return (digit * weight, rest)
    let (number, rest) ← number? bias (place + 1) (weight * (base - least)) rest
    return (digit * weight + number, rest)

/-- Inserts the letters that numbers tell of. Each number is at least one character. -/
def insertAll? : Nat → Letter → Nat → Nat → Bool → List Letter → List Char → Option (List Letter)
  | _, _, _, _, _, label, [] => some label
  | 0, _, _, _, _, _, _ => none
  | fuel + 1, letter, place, bias, isFirst, label, cs => do
    let (number, rest) ← number? bias 0 1 cs
    let size := label.length + 1
    let letter := letter + (place + number) / size
    let place := (place + number) % size
    if 0x10FFFF < letter then none
    else
      insertAll? fuel letter (place + 1) (adapted number size isFirst) false
        (label.take place ++ letter :: label.drop place) rest

/-- The label that is written in ASCII. -/
def decode? (cs : List Char) : Option (List Letter) :=
  let ending := (cs.reverse.takeWhile (· != '-')).reverse
  let plain := cs.take (cs.length - ending.length - 1)
  insertAll? ending.length firstLetter 0 firstBias true (plain.map (·.toNat)) ending

end Choreography.Http.Label.Punycode
