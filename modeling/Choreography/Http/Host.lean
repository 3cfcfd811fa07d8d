import Choreography.Http.Label
import Choreography.Text.Numeral

/-! Hosts. One may be written as numbers: four numbers with points between them, or up to
eight groups of hexadecimal digits with colons between them and brackets around them. One
that has letters beyond ASCII consists of labels. -/

namespace Choreography.Http.Host

/-- Whether a piece writes a number from 0 to 255, without needless zeros. -/
def isOctet (piece : List Char) : Bool :=
  piece.length ≤ 3 && (piece = ['0'] || piece.head? != some '0') &&
    (Numeral.digits? piece).any (· ≤ 255)

/-- Whether a text is an address of four numbers. -/
def isFourNumbers (cs : List Char) : Bool :=
  let pieces := cs.splitOn '.'
  pieces.length = 4 && pieces.all isOctet

def isGroup (piece : List Char) : Bool :=
  !piece.isEmpty && piece.length ≤ 4 && piece.all fun c => (Numeral.hexDigit? c).isSome

/-- The groups of an address. Its last two may be written as four numbers. -/
def groups? (cs : List Char) : Option (List (List Char)) :=
  let pieces := cs.splitOn ':'
  match pieces.getLast? with
  | some last =>
    if last.contains '.' then
      if pieces.length ≥ 3 && isFourNumbers last then some (pieces.dropLast ++ [['0'], ['0']])
      else none
    else some pieces
  | none => none

/-- Whether groups make a whole address: eight, or fewer with two colons somewhere, which
stand for groups of zeros. -/
def isWhole (groups : List (List Char)) : Bool :=
  match groups.drop 1 |>.dropLast.findIdx? List.isEmpty with
  | none => groups.length = 8 && groups.all isGroup
  | some place =>
    let before := groups.take (place + 1)
    let after := groups.drop (place + 2)
    let before := if before = [[]] then [] else before
    let after := if after = [[]] then [] else after
    before.all isGroup && after.all isGroup && before.length + after.length ≤ 7

/-- Whether a text is an address of groups. A name may follow it after a percent sign. -/
def isGroups (cs : List Char) : Bool :=
  let address := cs.takeWhile (· != '%')
  let isScoped := match cs.dropWhile (· != '%') with
    | _ :: scope => !scope.isEmpty && !scope.contains '%'
    | [] => true
  isScoped && !cs.contains '/' && address.length ≥ 2 &&
    (address.splitOn ':').length ≥ 3 && ((groups? address).any isWhole)

/-- Whether a host is digits of which each of three places between the first and the last
holds any one character. -/
def looksLikeNumbers (cs : List Char) : Bool :=
  reach 3 cs
where
  /-- Whether digits, and as often as wanted another character and digits, make the text. -/
  reach : Nat → List Char → Bool
    | 0, cs => !cs.isEmpty && cs.all Char.isDigit
    | more + 1, cs =>
      let digits := (cs.takeWhile Char.isDigit).length
      (List.range digits).any fun taken => reach more (cs.drop (taken + 2))

/-- What a host that is not what it seems to be is called. -/
def flaw? (host : String) : Option String :=
  let letters := Text.letters host
  -- halves of characters have no place in numbers
  let cs := letters.map fun letter => if Text.isHalf letter then '?' else Char.ofNat letter
  if looksLikeNumbers cs then
    if isFourNumbers cs then none else some "Invalid IPv4 address"
  else if cs.head? = some '[' && (cs.drop 1).getLast? = some ']' then
    if isGroups (cs.drop 1).dropLast then none else some "Invalid IPv6 address"
  else if letters.all (· < 128) || Label.areAll (Text.smallAfter [] letters) then none
  else some "Invalid IDNA hostname"

end Choreography.Http.Host
