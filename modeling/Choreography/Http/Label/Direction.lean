import Choreography.Http.Label.Letters

/-! The direction in which labels are written. A label with letters that are written from
right to left has only such letters, beside numbers, marks and signs. -/

namespace Choreography.Http.Label

open Text (Letter)

inductive Direction where
  | rightward
  | leftward
  | number
  /-- A number that is written among letters from right to left. -/
  | leftwardNumber
  /-- A mark has the direction of its letter. -/
  | mark
  | neutral
deriving DecidableEq

/-- The letters that are written from right to left, as ranges with both ends included. The
ranges reach over letters that labels do not have. -/
def leftwardRanges : Array (Letter × Letter) := #[
  (1488, 1524), (1568, 1610), (1646, 1647), (1649, 1749), (1765, 1766), (1774, 1775),
  (1786, 1808), (1810, 1839), (1869, 1957), (1969, 2026), (2036, 2037), (2048, 2069),
  (2074, 2074), (2084, 2084), (2088, 2088), (2112, 2136), (2144, 2190), (2208, 2249),
  (65139, 65139), (67584, 68096), (68112, 68149), (68192, 68324), (68352, 68899), (69248, 69289),
  (69296, 69445), (69488, 69505), (69552, 69622), (124928, 125124), (125218, 125251),
  (125259, 125273)]

/-- The letters of labels that have no direction, as ranges with both ends included. -/
def neutralRanges : Array (Letter × Letter) := #[
  (45, 45), (8204, 8205),
  (183, 183), (697, 698), (710, 719), (748, 748), (885, 885), (11823, 11823), (12539, 12539),
  (42623, 42623), (42775, 42783), (42888, 42888)]

def isLeftwardDigit (letter : Letter) : Bool := 0x660 ≤ letter && letter ≤ 0x669

/-- Whether a letter is one of the digits that stand beside the leftward ones. -/
def isOtherDigit (letter : Letter) : Bool := 0x6F0 ≤ letter && letter ≤ 0x6F9

def direction (letter : Letter) : Direction :=
  if Text.isAmong leftwardRanges letter then .leftward
  else if isLeftwardDigit letter || (0x10D30 ≤ letter && letter ≤ 0x10D39) then .leftwardNumber
  else if ('0'.toNat ≤ letter && letter ≤ '9'.toNat) || isOtherDigit letter then .number
  else if Text.isAmong neutralRanges letter then .neutral
  else if isNonspacing letter then .mark
  else .rightward

/-- Whether a label can be written in one direction. A label with anything leftward begins
with a leftward letter, ends with one or with a number, marks aside, and does not mix two
kinds of numbers. -/
def isDirected (label : List Letter) : Bool :=
  let directions := label.map direction
  let hasLeftward := directions.contains .leftward || directions.contains .leftwardNumber
  let ending := (directions.reverse.dropWhile (· = .mark)).head?
  !hasLeftward ||
    (directions.head? = some .leftward && !directions.contains .rightward &&
      (ending = some .leftward || ending = some .number || ending = some .leftwardNumber) &&
      !(directions.contains .number && directions.contains .leftwardNumber))

end Choreography.Http.Label
