import HdlLint.Toml.Text

/-!
# Dates and times of TOML documents

A moment is a date, a time, or a date with a time and perhaps a distance from universal time. Its
form decides where it ends (`Toml.moment?`); a date of the right form must also be one of the
calendar (`Date.isValid`).
-/

namespace HdlLint.Toml

/-- A day by its numbers. -/
structure Date where
  year : Nat
  month : Nat
  day : Nat

/-- Whether a year has a twenty-ninth of February. -/
def isLeapYear (year : Nat) : Bool :=
  year % 4 = 0 && (year % 100 ≠ 0 || year % 400 = 0)

/-- The number of days of a month. -/
def daysIn (year month : Nat) : Nat :=
  if month = 2 then (if isLeapYear year then 29 else 28)
  else if [4, 6, 9, 11].contains month then 30
  else 31

/-- Whether a day is one of the calendar, which starts with the year one. -/
def Date.isValid (d : Date) : Bool :=
  1 ≤ d.year && 1 ≤ d.month && d.month ≤ 12 && 1 ≤ d.day && d.day ≤ daysIn d.year d.month

/-- A number of exactly so many digits, and what follows it. -/
def fixedNumber? (count : Nat) (cs : List Char) : Option (Nat × List Char) :=
  let digits := cs.take count
  if digits.length = count && digits.all Char.isDigit then
    some (ofDigits 10 digits, cs.drop count)
  else none

/-- Leaves out a character that must be next. -/
def expect? (c : Char) : List Char → Option (List Char)
  | d :: rest => if c = d then some rest else none
  | [] => none

/-- A date, and what follows it. Months go up to twelve and days up to thirty-one. -/
def date? (cs : List Char) : Option (Date × List Char) := do
  let (year, cs) ← fixedNumber? 4 cs
  let (month, cs) ← fixedNumber? 2 (← expect? '-' cs)
  let (day, cs) ← fixedNumber? 2 (← expect? '-' cs)
  if 1 ≤ month && month ≤ 12 && 1 ≤ day && day ≤ 31 then return (⟨year, month, day⟩, cs)
  else none

/-- Leaves out the hours and minutes at the front of a text. -/
def afterMinutes? (cs : List Char) : Option (List Char) := do
  let (hour, cs) ← fixedNumber? 2 cs
  let (minute, cs) ← fixedNumber? 2 (← expect? ':' cs)
  if hour < 24 && minute < 60 then return cs else none

/-- Leaves out the fraction of a second at the front of a text, if there is one. -/
def afterFraction : List Char → List Char
  | '.' :: c :: rest => if c.isDigit then rest.dropWhile Char.isDigit else '.' :: c :: rest
  | cs => cs

/-- Leaves out the time at the front of a text. -/
def afterTime? (cs : List Char) : Option (List Char) := do
  let (second, cs) ← fixedNumber? 2 (← expect? ':' (← afterMinutes? cs))
  if second < 60 then return afterFraction cs else none

/-- Leaves out the distance from universal time at the front of a text, if there is one. -/
def afterOffset : List Char → List Char
  | 'Z' :: rest => rest
  | 'z' :: rest => rest
  | '+' :: rest => (afterMinutes? rest).getD ('+' :: rest)
  | '-' :: rest => (afterMinutes? rest).getD ('-' :: rest)
  | cs => cs

/-- Leaves out the time of a day behind its date, if there is one. -/
def afterTimeOfDay (cs : List Char) : List Char :=
  match cs with
  | c :: rest =>
    if c = 'T' || c = 't' || c = ' ' then ((afterTime? rest).map afterOffset).getD cs else cs
  | [] => cs

/-- The moment at the front of a text: whether the calendar has it, and what follows it. -/
def moment? (cs : List Char) : Option (Bool × List Char) :=
  match date? cs with
  | some (date, rest) => some (date.isValid, afterTimeOfDay rest)
  | none => (afterTime? cs).map (true, ·)

end HdlLint.Toml
