import Gateway.Text.Digits
/-!
# Lengths of time

A length of time is a number of nanoseconds below 2⁶⁴ seconds. It is printed in the largest unit
among seconds, milliseconds, microseconds and nanoseconds of which it holds at least one, as a
decimal fraction without trailing zeros.
-/

namespace Gateway

/-- A length of time in nanoseconds. -/
structure Duration where
  nanos : Nat
deriving DecidableEq, Repr

namespace Duration

/-- Nanoseconds in a second. -/
def perSecond : Nat := 1000000000

/-- Nanoseconds in a millisecond. -/
def perMilli : Nat := 1000000

/-- The first number of nanoseconds that is no length of time any more. -/
def bound : Nat := 1 <<< 64 * perSecond

/-- A whole number of seconds. -/
def ofSecs (n : Nat) : Duration := ⟨n * perSecond⟩

/-- A whole number of milliseconds. -/
def ofMillis (n : Nat) : Duration := ⟨n * perMilli⟩

/-- The sum of a number of seconds, milliseconds and nanoseconds, unless it is out of bounds. -/
def sum? (secs millis nanos : Nat) : Option Duration :=
  let n := secs * perSecond + millis * perMilli + nanos
  if n < bound then some ⟨n⟩ else none

/-- The digits of a fraction without its trailing zeros. -/
def trimZeros (ds : List Char) : List Char := (ds.reverse.dropWhile (· = '0')).reverse

/-- A number of units, each of `10 ^ places` parts, as a decimal fraction. -/
def fraction (places whole part : Nat) : List Char :=
  let ds := trimZeros (Text.padded 10 places part)
  if ds.isEmpty then Text.decimal whole else Text.decimal whole ++ ['.'] ++ ds

/-- The text of a length of time. -/
def text (d : Duration) : String :=
  let n := d.nanos
  String.ofList <|
    if perSecond ≤ n then fraction 9 (n / perSecond) (n % perSecond) ++ ['s']
    else if perMilli ≤ n then fraction 6 (n / perMilli) (n % perMilli) ++ ['m', 's']
    else if 1000 ≤ n then fraction 3 (n / 1000) (n % 1000) ++ ['µ', 's']
    else Text.decimal n ++ ['n', 's']

end Duration

end Gateway
