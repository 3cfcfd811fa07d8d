import Choreography.Decimal.Shortest
import Choreography.Text.Quoted

/-! How values are written into messages. A text stands alone as it is, but
quoted inside a list or a map and wherever a message shows a value exactly. -/

namespace Choreography

/-- Numbers between 10 ^ -4 and 10 ^ 16 are written without an exponent, and an
exponent has two digits at least. -/
def Value.numberLayout : Decimal.Layout where
  leastPlain := -4
  firstLarge := 16
  exponentWidth := 2
  nan := "nan"
  infinity := "inf"

def Double.text (x : Double) : String := Decimal.text Value.numberLayout x

/-- Texts between brackets, set apart by commas. -/
def bracketed (opening : String) (items : List String) (closing : String) : String :=
  opening ++ ", ".intercalate items ++ closing

/-- A support, as messages show it: one member is followed by a comma. -/
def tupleText : List String → String
  | [one] => "(" ++ one ++ ",)"
  | items => bracketed "(" items ")"

namespace Value

mutual

/-- The exact form, in which texts are quoted. -/
def exactText : Value → String
  | .null => "None"
  | .bool true => "True"
  | .bool false => "False"
  | .int n => toString n
  | .float x => x.text
  | .text s => Text.quoted s
  | .list items => bracketed "[" (exactTexts items) "]"
  | .map fields => bracketed "\x7b" (entryTexts fields) "\x7d"
termination_by structural v => v

def exactTexts : List Value → List String
  | [] => []
  | v :: vs => v.exactText :: exactTexts vs
termination_by structural vs => vs

def entryTexts : List (String × Value) → List String
  | [] => []
  | (name, v) :: fs => (Text.quoted name ++ ": " ++ v.exactText) :: entryTexts fs
termination_by structural fs => fs

end

/-- The plain form, in which a text stands for itself. -/
def plainText : Value → String
  | .text s => s
  | v => v.exactText

/-- What messages call the kind of a value. -/
def typeName : Value → String
  | .null => "NoneType"
  | .bool _ => "bool"
  | .int _ => "int"
  | .float _ => "float"
  | .text _ => "str"
  | .list _ => "list"
  | .map _ => "dict"

end Value

end Choreography
