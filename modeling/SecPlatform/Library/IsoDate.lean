import SecPlatform.Library.Number

/-!
# Timestamps

The canonical timestamps of the language: a text that `toISOString` writes, and its time in milliseconds.
-/

namespace SecPlatform.IsoDate

/-- A number of a fixed count of digits, and what follows it. -/
def takeDigits (count : Nat) (s : Text) : Option (Nat × Text) := do
  let digits ← (s.take count).mapM Digit.ofUnit
  if digits.length = count then some (Digit.value digits, s.drop count) else none

def takeUnit (c : Char) : Text → Option Text
  | d :: rest => if d = unit c then some rest else none
  | [] => none

/-- Four digits, or a sign and six digits for a year outside of their range. -/
def takeYear : Text → Option (Int × Text)
  | [] => none
  | c :: rest =>
      if c = unit '+' then do
        let (year, rest) ← takeDigits 6 rest
        if 9999 < year then some (year, rest) else none
      else if c = unit '-' then do
        let (year, rest) ← takeDigits 6 rest
        if 0 < year then some (-year, rest) else none
      else do
        let (year, rest) ← takeDigits 4 (c :: rest)
        return (year, rest)

def isLeapYear (year : Int) : Bool := year % 4 = 0 && (year % 100 ≠ 0 || year % 400 = 0)

def daysInMonth (year : Int) (month : Nat) : Nat :=
  if month = 2 then (if isLeapYear year then 29 else 28)
  else if month ∈ [4, 6, 9, 11] then 30 else 31

/-- The days from the first of January 1970, in years that begin in March. -/
def daysFromEpoch (year : Int) (month day : Nat) : Int :=
  let y := if month ≤ 2 then year - 1 else year
  let yearOfEra := y % 400
  let dayOfYear : Int := (153 * ((month + 9) % 12) + 2) / 5 + day - 1
  y / 400 * 146097 + (yearOfEra * 365 + yearOfEra / 4 - yearOfEra / 100 + dayOfYear) - 719468

/-- The time of a canonical timestamp. -/
def isoTime (s : Text) : Option Int := do
  let (year, s) ← takeYear s
  let (month, s) ← takeDigits 2 (← takeUnit '-' s)
  let (day, s) ← takeDigits 2 (← takeUnit '-' s)
  let (hour, s) ← takeDigits 2 (← takeUnit 'T' s)
  let (minute, s) ← takeDigits 2 (← takeUnit ':' s)
  let (second, s) ← takeDigits 2 (← takeUnit ':' s)
  let (milli, s) ← takeDigits 3 (← takeUnit '.' s)
  let rest ← takeUnit 'Z' s
  let time := daysFromEpoch year month day * 86400000 + ((hour * 60 + minute) * 60 + second) * 1000 + milli
  if 1 ≤ month ∧ month ≤ 12 ∧ 1 ≤ day ∧ day ≤ daysInMonth year month ∧ hour < 24 ∧ minute < 60 ∧ second < 60 ∧
      time.natAbs ≤ 8640000000000000 ∧ rest = [] then some time else none

/-- `/^\d{4}-\d{2}-\d{2}T\d{2}:\d{2}:\d{2}\.\d{3}Z$/u`: the shape alone. -/
def isTimestampText (s : Text) : Bool :=
  s.map (fun c => if (Digit.ofUnit c).isSome then unit '0' else c) = Text.ofString "0000-00-00T00:00:00.000Z"

example : isoTime "2024-02-29T12:30:00.250Z" = some 1709209800250 := by decide

end SecPlatform.IsoDate
