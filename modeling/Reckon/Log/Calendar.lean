import Reckon.Binary64

set_option autoImplicit false

/-!
# Civil time in UTC

Whole seconds since 1970-01-01 00:00:00 UTC become a date of the proleptic Gregorian calendar and a
time of day, counted in eras of 400 years whose years start on the first of March. The text is
`year-month-day hour:minute:second`, the year unpadded with its sign. A moment is a double, taken
as the whole seconds at or below it. It has a civil time only when those seconds fit a signed
64-bit count and its year fits a signed 32-bit count both itself and counted from 1900.
-/

namespace Reckon.Log

structure Civil where
  year : Int
  month : Nat
  day : Nat
  hour : Nat
  minute : Nat
  second : Nat
deriving DecidableEq, Repr

inductive TimeFault where
  | notANumber
  | outOfRange
  | yearOverflow
  | yearTooLarge
deriving DecidableEq, Repr

def TimeFault.message : TimeFault → String
  | .notANumber => "Invalid value NaN (not a number)"
  | .outOfRange => "timestamp out of range for platform time_t"
  | .yearOverflow => "[Errno 75] Value too large for defined data type"
  | .yearTooLarge => "signed integer is greater than maximum"

namespace Civil

def dateOfDay (days : Int) : Int × Nat × Nat :=
  let z := days + 719468
  let era := z / 146097
  let doe := (z - era * 146097).toNat
  let yoe := (doe - doe / 1460 + doe / 36524 - doe / 146096) / 365
  let doy := doe - (365 * yoe + yoe / 4 - yoe / 100)
  let mp := (5 * doy + 2) / 153
  let day := doy - (153 * mp + 2) / 5 + 1
  let month := if mp < 10 then mp + 3 else mp - 9
  let year : Int := yoe + era * 400 + (if month ≤ 2 then 1 else 0)
  (year, month, day)

def ofSeconds (t : Int) : Civil :=
  let days := t / 86400
  let secs := (t - days * 86400).toNat
  let (year, month, day) := dateOfDay days
  ⟨year, month, day, secs / 3600, secs % 3600 / 60, secs % 60⟩

def ofSeconds? (t : Int) : Except TimeFault Civil :=
  if t < -Int.pow 2 63 || Int.pow 2 63 ≤ t then .error .outOfRange
  else
    let c := ofSeconds t
    if c.year - 1900 < -Int.pow 2 31 || Int.pow 2 31 ≤ c.year - 1900 then .error .yearOverflow else .ok c

/-- The date and time of a moment given as a double: the whole seconds at or below it. A NaN has
none, and an infinity lies beyond every count of seconds. -/
def ofMoment? (t : Float) : Except TimeFault Civil :=
  if Binary64.isNaNBits t.toBits then .error .notANumber
  else if Binary64.isInfiniteBits t.toBits then .error .outOfRange
  else ofSeconds? (Binary64.floorInt t)

def twoDigits (n : Nat) : String :=
  String.ofList [Char.ofNat (48 + n / 10 % 10), Char.ofNat (48 + n % 10)]

/-- The text `year-month-day hour:minute:second`. -/
def text (c : Civil) : String :=
  toString c.year ++ "-" ++ twoDigits c.month ++ "-" ++ twoDigits c.day ++ " " ++
    twoDigits c.hour ++ ":" ++ twoDigits c.minute ++ ":" ++ twoDigits c.second

/-- The text of a date and time, when it can be written: the year must fit a signed 32-bit
count. -/
def text? (c : Civil) : Except TimeFault String :=
  if Int.pow 2 31 ≤ c.year then .error .yearTooLarge else .ok c.text

example : (ofSeconds 0).text = "1970-01-01 00:00:00" ∧
    (ofSeconds 951782400).text = "2000-02-29 00:00:00" ∧
    (ofSeconds (-86400)).text = "1969-12-31 00:00:00" ∧
    (ofSeconds 4102444799).text = "2099-12-31 23:59:59" := by
  decide +kernel

example : (ofSeconds? (10 ^ 19)).toOption = none ∧ (ofSeconds? (10 ^ 17)).toOption = none ∧
    (ofSeconds? 0).toOption = some (ofSeconds 0) := by
  decide +kernel

example : (ofSeconds 67767976233532792).text?.toOption = some "2147483647-12-31 23:59:52" ∧
    (ofSeconds 67767976233532800).text?.toOption = none := by
  decide +kernel

example : (ofSeconds (-100000000000)).text = "-1199-02-15 14:13:20" ∧
    (ofSeconds (-30610224001)).text = "999-12-31 23:59:59" := by
  decide +kernel

end Civil

end Reckon.Log
