import Choreography.Http.Label.Composition
import Choreography.Http.Label.Joining
import Choreography.Http.Label.Punycode

/-! Labels, which are the parts of a host that has letters beyond ASCII. -/

namespace Choreography.Http.Label

open Text (Letter)

/-! Some letters stand only beside others. -/

/-- The letters of Greek, which one sign stands before. -/
def greekRanges : Array (Letter × Letter) := #[
  (881, 993), (1011, 1020), (7462, 7466), (7936, 8182), (43877, 43877)]

/-- The letters of Hebrew, which two signs stand after. -/
def hebrewRanges : Array (Letter × Letter) := #[
  (1425, 1524), (64286, 64286)]

/-- The letters of which one is in every label with a point between words of Katakana. -/
def eastAsianRanges : Array (Letter × Letter) := #[
  (12293, 12293), (12295, 12295), (12353, 12438), (12445, 12538), (12541, 12542), (12784, 40959),
  (64014, 64041), (94179, 94179), (94192, 94193), (110576, 110951), (131072, 201546)]

/-- Whether a letter of a label fits between the letters before it, the nearest first, and
those after it. -/
def fits (label before : List Letter) (letter : Letter) (after : List Letter) : Bool :=
  let followsVowelless := before.head?.any fun last => markClass last = vowelless
  match letter with
  | 0xB7 => before.head? = some 'l'.toNat && after.head? = some 'l'.toNat
  | 0x375 => after.head?.any (Text.isAmong greekRanges)
  | 0x5F3 | 0x5F4 => before.head?.any (Text.isAmong hebrewRanges)
  | 0x200C => followsVowelless || wouldJoin before after
  | 0x200D => followsVowelless
  | 0x30FB => label.any (Text.isAmong eastAsianRanges)
  | _ =>
    if isLeftwardDigit letter then !label.any isOtherDigit
    else if isOtherDigit letter then !label.any isLeftwardDigit
    else isPlain letter

/-- Whether all letters of a label fit, of which those before are given, the nearest first. -/
def allFit (label before : List Letter) : List Letter → Bool
  | [] => true
  | letter :: rest => fits label before letter rest && allFit label (letter :: before) rest

/-- The most octets of a label in ASCII. -/
def longest : Nat := 63

/-- The most octets of all labels and the points between them. -/
def longestHost : Nat := 253

/-- Whether a label is a name. Hyphens neither begin nor end it, nor are two of them in its
third and fourth place, where they would mark another encoding. -/
def isName (label : List Letter) : Bool :=
  !label.isEmpty && label.length ≤ longestHost + 1 &&
    label.head? != some hyphen && label.getLast? != some hyphen &&
    (label.drop 2).take 2 != [hyphen, hyphen] && !label.head?.any isMark &&
    allFit label [] label && wellFormed label = label && isDirected label

/-- What a label in ASCII begins with if it stands for another one. -/
def encodingMark : List Char := ['x', 'n', '-', '-']

/-- A label in ASCII, if it is a name, or stands for one. -/
def encode? (label : List Letter) : Option (List Char) :=
  let isKnown :=
    if label.all (· < 128) then
      let cs := label.map Char.ofNat
      if encodingMark.isPrefixOf cs then
        match cs.drop encodingMark.length with
        | [] => false
        | encoded => encoded.getLast? != some '-' && (Punycode.decode? encoded).any isName
      else isName label
    else isName label
  let written :=
    if label.all (· < 128) then label.map Char.ofNat else encodingMark ++ Punycode.encode label
  if isKnown && written.length ≤ longest then some written else none

/-- The points between labels, in ASCII and in other scripts. -/
def isPoint (letter : Letter) : Bool := [0x2E, 0x3002, 0xFF0E, 0xFF61].contains letter

/-- Whether a host has labels only, once its letters are small. The last of several may be
empty, and then the host may be longer by its point. -/
def areAll (host : List Letter) : Bool :=
  let labels := host.splitOnP isPoint
  let isOpen := 1 < labels.length && labels.getLast? = some []
  let labels := if isOpen then labels.dropLast else labels
  match labels.mapM encode? with
  | some written => (".".toList.intercalate written).length ≤ longestHost
  | none => false

end Choreography.Http.Label
