import Choreography.Text.Letter
import Choreography.Text.Printable

/-! Quoted text. A text is written between single quotes, or between double
quotes when it holds a single quote and no double quote. Inside, the closing
quote and the backslash are escaped, and every character without a visible form
is written by its number. -/

namespace Choreography.Text

/-- `width` lower-case hexadecimal digits of `n`. -/
def hex (width n : Nat) : String :=
  let digits := String.ofList (Nat.toDigits 16 n)
  String.ofList (List.replicate (width - digits.length) '0') ++ digits

/-- A letter that has no visible form, in the shortest escape that holds it. -/
def numbered (letter : Letter) : String :=
  if letter < 256 then "\\x" ++ hex 2 letter
  else if letter < 65536 then "\\u" ++ hex 4 letter
  else "\\U" ++ hex 8 letter

/-- One letter between quotes. -/
def quotedLetter (quote : Char) (letter : Letter) : String :=
  if letter = quote.toNat || letter = '\\'.toNat then "\\" ++ ofLetter letter
  else if letter = '\n'.toNat then "\\n"
  else if letter = '\r'.toNat then "\\r"
  else if letter = '\t'.toNat then "\\t"
  else if isPrintable letter then ofLetter letter
  else numbered letter

/-- The quote that needs the fewer escapes, single unless only that one occurs. -/
def quoteFor (s : String) : Char :=
  if s.toList.contains '\'' && !s.toList.contains '"' then '"' else '\''

def quoted (s : String) : String :=
  let quote := quoteFor s
  quote.toString ++ String.join ((letters s).map (quotedLetter quote)) ++ quote.toString

end Choreography.Text
