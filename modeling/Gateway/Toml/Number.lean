import Gateway.Text.Digits
/-!
# Numbers and dates of TOML

Integers have 64 bits with a sign; they are written in decimal, or without a sign in base sixteen,
eight or two, and an underscore may stand between two digits. Of a number with a fraction or an
exponent, and of a date or time, only the form is checked, because no setting of the gateway takes
one: a number must not be too large for a double, a day must exist in its month.

A reader takes the text from some point on and yields what it read and the rest.
-/

namespace Gateway.Toml

/-- A number or date. -/
inductive Quantity where
  | integer (n : Int)
  | decimal
  | moment
deriving DecidableEq, Repr

/-! ### Digits -/

/-- Reads digits of a base with single underscores between them. -/
def digits? (base : Nat) (s : List Char) : Option (List Char × List Char) :=
  let isPart (c : Char) : Bool := Text.isDigitOf base c || c = '_'
  let run := s.takeWhile isPart
  if (Text.split '_' run).any List.isEmpty then none
  else some (run.filter (· != '_'), s.drop run.length)

/-- Reads the digits of a decimal integer, which start with a zero only if they are one. -/
def wholePart? : List Char → Option (List Char × List Char)
  | '0' :: r => some (['0'], r)
  | s => digits? 10 s

/-- Reads exactly `width` decimal digits with a value between two bounds. -/
def fixed? (width low high : Nat) (s : List Char) : Option (Nat × List Char) :=
  let ds := s.take width
  match Text.value? 10 ds with
  | some n => if ds.length = width ∧ low ≤ n ∧ n ≤ high then some (n, s.drop width) else none
  | none => none

/-! ### Dates and times -/

/-- The number of days in a month. -/
def daysIn (year month : Nat) : Nat :=
  if month = 2 then
    if year % 4 = 0 ∧ (year % 100 ≠ 0 ∨ year % 400 = 0) then 29 else 28
  else if [4, 6, 9, 11].contains month then 30 else 31

/-- What follows a date. -/
def afterDate? (s : List Char) : Option (List Char) := do
  let (year, s) ← fixed? 4 0 9999 s
  let (month, s) ← fixed? 2 1 12 (← Text.afterStart ['-'] s)
  let (_, s) ← fixed? 2 1 (daysIn year month) (← Text.afterStart ['-'] s)
  return s

/-- What follows an optional fraction of a second. -/
def afterSecondFraction : List Char → List Char
  | '.' :: r => if r.head?.any Char.isDigit then r.dropWhile Char.isDigit else '.' :: r
  | s => s

/-- What follows a time of day. -/
def afterTime? (s : List Char) : Option (List Char) := do
  let (_, s) ← fixed? 2 0 23 s
  let (_, s) ← fixed? 2 0 59 (← Text.afterStart [':'] s)
  let (_, s) ← fixed? 2 0 60 (← Text.afterStart [':'] s)
  return afterSecondFraction s

/-- What follows an optional distance from universal time. -/
def afterOffset? (s : List Char) : Option (List Char) :=
  match s with
  | c :: r =>
    if c = 'Z' ∨ c = 'z' then some r
    else if c = '+' ∨ c = '-' then do
      let (_, r) ← fixed? 2 0 23 r
      let (_, r) ← fixed? 2 0 59 (← Text.afterStart [':'] r)
      return r
    else some s
  | [] => some []

/-- Whether a text starts with an hour and a colon. -/
def startsTime (s : List Char) : Bool :=
  (fixed? 2 0 23 s).isSome && s[2]? == some ':'

/-- What follows an optional time after a date. -/
def afterDateTime? (s : List Char) : Option (List Char) :=
  match s with
  | c :: r =>
    if (c = 'T' ∨ c = 't' ∨ c = ' ') ∧ startsTime r then (afterTime? r).bind afterOffset?
    else some s
  | [] => some []

/-- Whether a text starts with a year and a dash. -/
def startsDate (s : List Char) : Bool :=
  (fixed? 4 0 9999 s).isSome && s[4]? == some '-'

/-! ### Numbers -/

/-- The least number that rounds to infinity in double precision. -/
def doubleLimit : Nat := 1 <<< 1024 - 1 <<< 970

/-- Whether `m · 10 ^ e` rounds to infinity in double precision. The number of digits decides unless
it is close to that of the limit. -/
def isTooLarge (m : Nat) (e : Int) : Bool :=
  if m = 0 then false
  else
    let size : Int := (Nat.toDigits 10 m).length + e
    if size < 300 then false
    else if 320 < size then true
    else if 0 ≤ e then doubleLimit ≤ m * Nat.pow 10 e.toNat
    else doubleLimit * Nat.pow 10 (-e).toNat ≤ m

/-- Reads an optional exponent: its value, and whether there is one. -/
def exponent? (s : List Char) : Option ((Int × Bool) × List Char) :=
  match s with
  | c :: r =>
    if c = 'e' ∨ c = 'E' then
      let negative := r.head? = some '-'
      let r := if negative ∨ r.head? = some '+' then r.drop 1 else r
      do
        let (ds, r) ← digits? 10 r
        let n ← Text.value? 10 ds
        return ((if negative then -(n : Int) else n, true), r)
    else some ((0, false), s)
  | [] => some ((0, false), [])

/-- Reads an optional fraction: its digits. -/
def fraction? : List Char → Option (List Char × List Char)
  | '.' :: r => digits? 10 r
  | s => some ([], s)

/-- The first number past the integers of 64 bits. -/
def integerLimit : Nat := 1 <<< 63

/-- An integer, if it fits into 64 bits. -/
def integer? (n : Int) : Option Quantity :=
  if -(integerLimit : Int) ≤ n ∧ n < integerLimit then some (.integer n) else none

/-- Reads a decimal number after its sign. -/
def decimal? (negative : Bool) (s : List Char) : Option (Quantity × List Char) := do
  let (whole, s) ← wholePart? s
  let (frac, afterFrac) ← fraction? s
  let ((e, hasExponent), rest) ← exponent? afterFrac
  let m ← Text.value? 10 (whole ++ frac)
  if hasExponent || !frac.isEmpty then
    if !negative && isTooLarge m (e - frac.length) then none else some (.decimal, rest)
  else (integer? (if negative then -(m : Int) else m)).map fun q => (q, rest)

/-- Reads an integer in another base after its two-character mark. -/
def based? (base : Nat) (s : List Char) : Option (Quantity × List Char) := do
  let (ds, r) ← digits? base s
  let n ← Text.value? base ds
  (integer? n).map fun q => (q, r)

/-- Reads infinity or an undefined number. -/
def special? : List Char → Option (List Char)
  | 'i' :: 'n' :: 'f' :: r => some r
  | 'n' :: 'a' :: 'n' :: r => some r
  | _ => none

/-- Reads a number after its optional sign. -/
def signed? (negative : Bool) (s : List Char) : Option (Quantity × List Char) :=
  match special? s with
  | some r => some (.decimal, r)
  | none => decimal? negative s

/-- Reads a number or date. -/
def quantity? (s : List Char) : Option (Quantity × List Char) :=
  if startsDate s then ((afterDate? s).bind afterDateTime?).map fun r => (.moment, r)
  else if startsTime s then (afterTime? s).map fun r => (.moment, r)
  else match s with
    | '+' :: r => signed? false r
    | '-' :: r => signed? true r
    | '0' :: 'x' :: r => based? 16 r
    | '0' :: 'o' :: r => based? 8 r
    | '0' :: 'b' :: r => based? 2 r
    | s => signed? false s

end Gateway.Toml
