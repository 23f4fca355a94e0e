import PageTree.Yaml.Cursor

/-!
# Timestamps

A timestamp is a date, or a date and a time with an optional offset from universal time. Whether a plain
scalar is one is decided by its form alone; whether it names a day and a time that exist is asked only when
its value is needed.
-/

set_option autoImplicit false

namespace PageTree.Yaml

/-- The offset of a time, in minutes. -/
structure Offset where
  minutes : Nat
deriving DecidableEq

/-- A time of day with its offset, if it has one. -/
structure TimeOfDay where
  hour : Nat
  minute : Nat
  second : Nat
  offset : Option Offset
deriving DecidableEq

/-- A timestamp. A date is in full if month and day have two digits each. -/
structure Timestamp where
  year : Nat
  month : Nat
  day : Nat
  dateInFull : Bool
  time : Option TimeOfDay
deriving DecidableEq

namespace Timestamp

/-- At least `least` and at most `most` digits at the start of a text, and what follows them. -/
def cutDigits (least most : Nat) (s : Text) : Option (Text × Text) :=
  let digits := (s.take most).takeWhile CodePoint.isDigit
  if digits.length < least then none else some (digits, s.drop digits.length)

/-- A code point at the start of a text, and what follows it. -/
def cutPoint (c : CodePoint) : Text → Option Text
  | [] => none
  | x :: rest => if x = c then some rest else none

/-- The minutes of an offset after a colon, or none. -/
def offsetMinutes? (s : Text) : Option Nat :=
  if s = [] then some 0
  else do
    let rest ← cutPoint ':' s
    let (minutes, rest) ← cutDigits 2 2 rest
    if rest = [] then some (Text.digitsValue minutes) else none

/-- An offset, which ends a timestamp, or nothing. -/
def offset? (s : Text) : Option (Option Offset) :=
  if s = [] then some none
  else
    match s.dropWhile isBlank with
    | [] => none
    | c :: rest =>
      if c = 'Z' then if rest = [] then some (some ⟨0⟩) else none
      else if c = '+' ∨ c = '-' then do
        let (hours, rest) ← cutDigits 1 2 rest
        let minutes ← offsetMinutes? rest
        return some ⟨Text.digitsValue hours * 60 + minutes⟩
      else none

/-- What follows the seconds without their fraction, if they have one. -/
def dropFraction (s : Text) : Text :=
  match cutPoint '.' s with
  | some rest => rest.dropWhile CodePoint.isDigit
  | none => s

/-- A time of day, which ends a timestamp. -/
def time? (s : Text) : Option TimeOfDay := do
  let (hour, s) ← cutDigits 1 2 s
  let s ← cutPoint ':' s
  let (minute, s) ← cutDigits 2 2 s
  let s ← cutPoint ':' s
  let (second, s) ← cutDigits 2 2 s
  let offset ← offset? (dropFraction s)
  return ⟨Text.digitsValue hour, Text.digitsValue minute, Text.digitsValue second, offset⟩

/-- What stands before a time of day: the letter `T` or blanks. -/
def cutTimeMark : Text → Option Text
  | [] => none
  | c :: rest =>
    if c = 'T' ∨ c = 't' then some rest
    else if isBlank c then some (rest.dropWhile isBlank)
    else none

/-- The timestamp of a text without a line end. -/
def ofLine? (s : Text) : Option Timestamp := do
  let (year, s) ← cutDigits 4 4 s
  let s ← cutPoint '-' s
  let (month, s) ← cutDigits 1 2 s
  let s ← cutPoint '-' s
  let (day, s) ← cutDigits 1 2 s
  let time ← if s = [] then some none else (cutTimeMark s).bind fun s => (time? s).map some
  return {
    year := Text.digitsValue year
    month := Text.digitsValue month
    day := Text.digitsValue day
    dateInFull := month.length == 2 && day.length == 2
    time }

/-- The text without the line feed at its end, if there is one. -/
def dropLineEnd (s : Text) : Text :=
  if s.getLast? = some (CodePoint.ofChar '\n') then s.dropLast else s

/-- The timestamp of a text. A line feed at its end counts for nothing. -/
def ofText? (s : Text) : Option Timestamp := ofLine? (dropLineEnd s)

/-- Whether a plain scalar of this form is a timestamp: a date alone has to be in full. -/
def isPlain (t : Timestamp) : Bool := t.time.isSome || t.dateInFull

/-- Whether a year has a 29 February. -/
def isLeapYear (year : Nat) : Bool := year % 4 = 0 && (year % 100 ≠ 0 || year % 400 = 0)

/-- How many days a month has. -/
def daysIn (year month : Nat) : Nat :=
  if month = 2 then if isLeapYear year then 29 else 28
  else if month = 4 ∨ month = 6 ∨ month = 9 ∨ month = 11 then 30
  else 31

/-- Whether there is such a time of day. An offset is shorter than a day. -/
def TimeOfDay.isPossible (t : TimeOfDay) : Bool :=
  t.hour ≤ 23 && t.minute ≤ 59 && t.second ≤ 59 &&
    match t.offset with
    | some o => o.minutes < 24 * 60
    | none => true

/-- Whether there are such a day and such a time. -/
def isPossible (t : Timestamp) : Bool :=
  1 ≤ t.year && 1 ≤ t.month && t.month ≤ 12 && 1 ≤ t.day && t.day ≤ daysIn t.year t.month &&
    match t.time with
    | some time => TimeOfDay.isPossible time
    | none => true

end Timestamp

end PageTree.Yaml
