import Gateway.Text.Digits
/-!
# Dates in header fields

An instant is a number of seconds since the start of 1970. Its text has a fixed width: the day of
the week, the date and the time of day. Years have four digits, so there is a last instant.
-/

namespace Gateway.Http.Date

/-- The last second of the year 9999. -/
def last : Nat := 253402300799

/-- The names of the days of the week, starting with the day of the week of 1 January 1970. -/
def dayNames : List String := ["Thu", "Fri", "Sat", "Sun", "Mon", "Tue", "Wed"]

/-- The names of the months. -/
def monthNames : List String :=
  ["Jan", "Feb", "Mar", "Apr", "May", "Jun", "Jul", "Aug", "Sep", "Oct", "Nov", "Dec"]

/-- A day of the calendar; `month` counts from one. -/
structure Day where
  year : Nat
  month : Nat
  day : Nat
deriving DecidableEq, Repr

/-- The calendar day a number of days after 1 January 1970. Years are counted from March, so that a
leap day is the last of its year; 146097 days make 400 years. -/
def ofDays (days : Nat) : Day :=
  let shifted := days + 719468
  let era := shifted / 146097
  let dayOfEra := shifted % 146097
  let yearOfEra :=
    (dayOfEra - dayOfEra / 1460 + dayOfEra / 36524 - dayOfEra / 146096) / 365
  let dayOfYear := dayOfEra - (365 * yearOfEra + yearOfEra / 4 - yearOfEra / 100)
  let march := (5 * dayOfYear + 2) / 153
  let day := dayOfYear - (153 * march + 2) / 5 + 1
  let month := if march < 10 then march + 3 else march - 9
  let year := yearOfEra + era * 400 + (if month ≤ 2 then 1 else 0)
  ⟨year, month, day⟩

/-- A number in two digits. -/
def two (n : Nat) : String := String.ofList (Text.padded 10 2 n)

/-- The text of an instant. -/
def text (seconds : Nat) : String :=
  let days := seconds / 86400
  let time := seconds % 86400
  let d := ofDays days
  (dayNames[days % 7]?.getD "") ++ ", " ++ two d.day ++ " " ++
    (monthNames[d.month - 1]?.getD "") ++ " " ++ String.ofList (Text.padded 10 4 d.year) ++ " " ++
    two (time / 3600) ++ ":" ++ two (time / 60 % 60) ++ ":" ++ two (time % 60) ++ " GMT"

end Gateway.Http.Date
