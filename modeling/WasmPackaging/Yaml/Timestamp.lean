import WasmPackaging.Yaml.Fault

/-!
Dates and times of day as scalars write them.
-/

namespace WasmPackaging.Yaml

/-- A time of day, with its distance from universal time in minutes if that is given. -/
structure TimeOfDay where
  hour : Nat
  minute : Nat
  second : Nat
  micro : Nat
  offset : Option Int
  deriving DecidableEq

/-- A date, perhaps with a time of day. -/
structure Timestamp where
  year : Nat
  month : Nat
  day : Nat
  time : Option TimeOfDay
  deriving DecidableEq

/-- The number that some decimal digits write. -/
def digitsValue (digits : List Char) : Nat :=
  digits.foldl (fun n d => n * 10 + (d.toNat - '0'.toNat)) 0

/-- Reads a run of at least some and at most some digits. -/
def someDigits (least most : Nat) (s : List Char) : Option (List Char × List Char) :=
  let run := (s.takeWhile Char.isDigit).take most
  if run.length < least then none else some (run, s.drop run.length)

/-- Reads a character. -/
def sign (c : Char) : List Char → Option (List Char)
  | a :: rest => if a = c then some rest else none
  | [] => none

/-- Whether a character is a space or a tab. -/
def isBlankChar (c : Char) : Bool := c == ' ' || c == '\t'

namespace Timestamp

/-- The millionths of a second that the digits behind the point write. -/
def micros (digits : List Char) : Nat := digitsValue ((digits ++ List.replicate 6 '0').take 6)

/-- Reads a distance from universal time up to the end of the text. -/
def offset? (s : List Char) : Option (Option Int) :=
  match s.dropWhile isBlankChar with
  | [] => if s = [] then some none else none
  | ['Z'] => some (some 0)
  | a :: rest =>
    if a ≠ '+' ∧ a ≠ '-' then none
    else do
      let (hours, rest) ← someDigits 1 2 rest
      let minutes ←
        if rest = [] then some 0
        else do
          let (minutes, rest) ← someDigits 2 2 (← sign ':' rest)
          if rest = [] then some (digitsValue minutes) else none
      let distance : Int := digitsValue hours * 60 + minutes
      return some (if a = '-' then -distance else distance)

/-- Reads a time of day up to the end of the text. -/
def timeOfDay? (s : List Char) : Option TimeOfDay := do
  let (hour, s) ← someDigits 1 2 s
  let (minute, s) ← someDigits 2 2 (← sign ':' s)
  let (second, s) ← someDigits 2 2 (← sign ':' s)
  let (fraction, s) := match s with
    | '.' :: rest => (rest.takeWhile Char.isDigit, rest.dropWhile Char.isDigit)
    | s => ([], s)
  return ⟨digitsValue hour, digitsValue minute, digitsValue second, micros fraction, ← offset? s⟩

/-- What stands between a date and a time of day is passed over. -/
def betweenDateAndTime : List Char → Option (List Char)
  | a :: rest =>
    if a = 'T' ∨ a = 't' then some rest
    else if isBlankChar a then some (rest.dropWhile isBlankChar) else none
  | [] => none

/-- The timestamp that a text writes. Where only written-out months and days count, a date without a
time of day has two digits for each. -/
def ofText? (writtenOut : Bool) (s : List Char) : Option Timestamp := do
  let (year, s) ← someDigits 4 4 s
  let (month, s) ← someDigits 1 2 (← sign '-' s)
  let (day, s) ← someDigits 1 2 (← sign '-' s)
  let date := Timestamp.mk (digitsValue year) (digitsValue month) (digitsValue day)
  if s = [] then
    if writtenOut && (month.length < 2 || day.length < 2) then none else return date none
  else
    return date (some (← timeOfDay? (← betweenDateAndTime s)))

/-- Whether a year has a day more than others. -/
def isLeap (year : Nat) : Bool := year % 4 == 0 && (year % 100 != 0 || year % 400 == 0)

/-- How many days a month has. -/
def daysIn (year month : Nat) : Nat :=
  if month = 2 then (if isLeap year then 29 else 28)
  else if [4, 6, 9, 11].contains month then 30 else 31

/-- The first part of a timestamp that is out of its range. -/
def fault? (t : Timestamp) : Option ValueFault :=
  let offset := t.time.bind (·.offset)
  if offset.any fun minutes => minutes ≤ -1440 || 1440 ≤ minutes then offset.map .offset
  else if t.year = 0 then some (.year t.year)
  else if t.month < 1 ∨ 12 < t.month then some .month
  else if t.day < 1 ∨ daysIn t.year t.month < t.day then some .day
  else t.time.bind fun time =>
    if 23 < time.hour then some .hour
    else if 59 < time.minute then some .minute
    else if 59 < time.second then some .second else none

/-- The days from the start of the calendar to a date. -/
def dayNumber (year month day : Nat) : Nat :=
  let past := year - 1
  let months := (List.range (month - 1)).foldl (fun days m => days + daysIn year (m + 1)) 0
  past * 365 + past / 4 - past / 100 + past / 400 + months + day

/-- What a timestamp is known by: with a distance from universal time the point in time, else how it is
written. -/
def identity (t : Timestamp) : List Int :=
  match t.time with
  | none => [t.year, t.month, t.day]
  | some time =>
    match time.offset with
    | none => [t.year, t.month, t.day, time.hour, time.minute, time.second, time.micro]
    | some offset =>
      let minutes : Int := (dayNumber t.year t.month t.day * 24 + time.hour) * 60 + time.minute
      [minutes - offset, time.second, time.micro, 0, 0]

/-- How a distance from universal time is shown. -/
def shownOffset (minutes : Int) : String :=
  if minutes = 0 then "datetime.timezone.utc" else s!"datetime.timezone({shownSpan minutes})"

/-- How a timestamp is shown. -/
def shown (t : Timestamp) : String :=
  let date := [t.year, t.month, t.day]
  let list (numbers : List Nat) : List String := numbers.map toString
  match t.time with
  | none => "datetime.date(" ++ Text.commaList (list date) ++ ")"
  | some time =>
    let small :=
      if time.micro ≠ 0 then [time.second, time.micro] else if time.second ≠ 0 then [time.second] else []
    let zone := (time.offset.map fun minutes => "tzinfo=" ++ shownOffset minutes).toList
    "datetime.datetime(" ++
      Text.commaList (list (date ++ [time.hour, time.minute] ++ small) ++ zone) ++ ")"

end Timestamp

end WasmPackaging.Yaml
