import Choreography.Error

/-! Moments of the calendar, made of numbers from the year down to the microsecond. Those
after the day may be left out. -/

namespace Choreography.Timestamp

/-- The numbers of a moment: what each is called, and the least and the most that it may
be. How many days there are is for the month to say. -/
def numbers : List (String × Int × Int) :=
  [("year", 1, 9999), ("month", 1, 12), ("day", 1, 31), ("hour", 0, 23), ("minute", 0, 59),
   ("second", 0, 59), ("microsecond", 0, 999999)]

/-- How many of the numbers cannot be left out. -/
def fewest : Nat := 3

def isLeap (year : Nat) : Bool := year % 4 = 0 && (year % 100 ≠ 0 || year % 400 = 0)

def daysIn (year month : Nat) : Nat :=
  if month = 2 then (if isLeap year then 29 else 28)
  else if [4, 6, 9, 11].contains month then 30
  else 31

/-- The number that a value is. It has to have 32 bits at most. -/
def number (value : Value) : Except Error Int :=
  let within (n : Int) : Except Error Int :=
    if n < -(Int.pow 2 63) ∨ Int.pow 2 63 ≤ n then
      .error (.plain .overflow "Python int too large to convert to C long")
    else if n < -(Int.pow 2 31) then .error (.plain .overflow "signed integer is less than minimum")
    else if Int.pow 2 31 ≤ n then .error (.plain .overflow "signed integer is greater than maximum")
    else .ok n
  match value with
  | .int n => within n
  | .bool b => .ok (if b then 1 else 0)
  | value =>
    .error (.plain .type s!"'{value.typeName}' object cannot be interpreted as an integer")

/-- What is wrong with a number, if anything is. -/
def flaw? (entry : Int × String × Int × Int) : Option String :=
  match entry with
  | (n, name, least, most) =>
    if least ≤ n ∧ n ≤ most then none
    else if name = "year" then some s!"year {n} is out of range"
    else if name = "day" then some "day is out of range for month"
    else some s!"{name} must be in {least}..{most}"

/-- The moment that values make. -/
def ofValues (values : List Value) : Except Error Timestamp := do
  let count := values.length
  if numbers.length + 1 < count then
    throw (.plain .type s!"function takes at most 9 arguments ({count + 1} given)")
  let found ← (values.take numbers.length).mapM number
  if numbers.length < count then
    throw (.plain .type "argument for function given by name ('tzinfo') and position (8)")
  if count < fewest then
    let name := ((numbers[count]?).map (·.1)).getD ""
    throw (.plain .type s!"function missing required argument '{name}' (pos {count + 1})")
  let part (i : Nat) : Nat := (found.getD i 0).toNat
  let flaw? (i : Nat) : Option String := ((found.zip numbers)[i]?).bind Timestamp.flaw?
  let days : Option String :=
    if daysIn (part 0) (part 1) < part 2 then some "day is out of range for month" else none
  match ([flaw? 0, flaw? 1, flaw? 2, days] ++ [3, 4, 5, 6].map flaw?).findSome? id with
  | some text => throw (.plain .value text)
  | none =>
    return { year := part 0, month := part 1, day := part 2, hour := part 3, minute := part 4
             second := part 5, microsecond := part 6 }

end Choreography.Timestamp
