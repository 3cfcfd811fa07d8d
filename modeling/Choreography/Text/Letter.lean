/-! Letters. A text is made of characters, but it may also hold halves of surrogate
pairs that stand alone and are no characters. A half is written as a mark and a
character out of a range that is set aside for private use, and the mark itself is
written twice. So every letter has its own writing, and no writing is part of another. -/

namespace Choreography.Text

/-- A letter: the code of a character, or half of a surrogate pair. -/
abbrev Letter := Nat

def isHighHalf (code : Letter) : Bool := 0xD800 ≤ code && code < 0xDC00

def isLowHalf (code : Letter) : Bool := 0xDC00 ≤ code && code < 0xE000

def isHalf (code : Letter) : Bool := isHighHalf code || isLowHalf code

/-- The letter that a high and a low half write together. -/
def joined (high low : Letter) : Letter := 0x10000 + (high - 0xD800) * 1024 + (low - 0xDC00)

/-- The mark before a half, which is the last of all code points. -/
def mark : Char := Char.ofNat 0x10FFFF

/-- How far the character after a mark is from the half that it stands for. -/
def offset : Nat := 0x800

/-- The characters that write a letter. -/
def written (letter : Letter) : List Char :=
  if isHalf letter then [mark, Char.ofNat (letter + offset)]
  else if letter = mark.toNat then [mark, mark]
  else [Char.ofNat letter]

/-- The letters that characters write. -/
def lettersOf : List Char → List Letter
  | [] => []
  | [c] => [c.toNat]
  | c :: d :: rest =>
    if c = mark then (if d = mark then mark.toNat else d.toNat - offset) :: lettersOf rest
    else c.toNat :: lettersOf (d :: rest)

def letters (text : String) : List Letter := lettersOf text.toList

def ofLetters (letters : List Letter) : String := String.ofList (letters.flatMap written)

/-- The text of characters, each of which is a letter. -/
def ofCharacters (characters : String) : String := ofLetters (characters.toList.map (·.toNat))

def ofLetter (letter : Letter) : String := ofLetters [letter]

/-- The letters of a text, each as a text of its own. -/
def singles (text : String) : List String := (letters text).map ofLetter

/-- How many letters a text has. -/
def size (text : String) : Nat := (letters text).length

/-- The first letters of a text. -/
def first (n : Nat) (text : String) : String := ofLetters ((letters text).take n)

def hasHalf (text : String) : Bool := (letters text).any isHalf

/-- Whether a letter is in one of several ranges, with both ends included. -/
def isAmong (ranges : Array (Letter × Letter)) (letter : Letter) : Bool :=
  ranges.any fun range => range.1 ≤ letter && letter ≤ range.2

/-- Whether a text is part of another one. -/
def isWithin (part text : String) : Bool :=
  part.isEmpty || begins (letters part) (letters text)
where
  begins (part : List Letter) : List Letter → Bool
    | [] => false
    | letter :: rest => part.isPrefixOf (letter :: rest) || begins part rest

/-- The order of texts, by their first letters that differ. -/
def le (a b : String) : Bool := !(letters b).lex (letters a)

/-- Texts in their order. -/
def sorted (texts : List String) : List String := texts.mergeSort le

end Choreography.Text
