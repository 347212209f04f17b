import Gateway.Text.Split
/-!
# Numerals

Numbers in decimal and hexadecimal. The printers write no leading zero; the readers here accept
digits only, and leave signs, limits and leading zeros to the formats that use them.
-/

namespace Gateway.Text

/-- The value of a digit character in a base up to sixteen. -/
def digitValue? (base : Nat) (c : Char) : Option Nat :=
  let n := c.toNat
  let v :=
    if 0x30 ≤ n ∧ n ≤ 0x39 then n - 0x30
    else if 0x61 ≤ n ∧ n ≤ 0x66 then n - 0x57
    else if 0x41 ≤ n ∧ n ≤ 0x46 then n - 0x37
    else base
  if v < base then some v else none

/-- Whether a character is a digit of a base up to sixteen. -/
def isDigitOf (base : Nat) (c : Char) : Bool := (digitValue? base c).isSome

/-- The decimal numeral of a number. -/
def decimal (n : Nat) : List Char := Nat.toDigits 10 n

/-- The hexadecimal numeral of a number. -/
def hex (n : Nat) : List Char := Nat.toDigits 16 n

/-- A number in at least `width` digits, filled up with zeros. -/
def padded (base width n : Nat) : List Char :=
  let ds := Nat.toDigits base n
  List.replicate (width - ds.length) '0' ++ ds

/-- The value of a list of digit characters, which need not be nonempty. -/
def valueFrom? (base : Nat) (acc : Nat) : List Char → Option Nat
  | [] => some acc
  | c :: r =>
    match digitValue? base c with
    | some d => valueFrom? base (acc * base + d) r
    | none => none

/-- The value of a nonempty list of digit characters. -/
def value? (base : Nat) (s : List Char) : Option Nat :=
  if s.isEmpty then none else valueFrom? base 0 s

/-- The two hexadecimal digits of a byte. -/
def hexByte (b : UInt8) : List Char := [(b.toNat / 16).digitChar, (b.toNat % 16).digitChar]

/-- The hexadecimal form of a byte string. -/
def hexBytes (bs : Bytes) : List Char := bs.flatMap hexByte

/-- Reads a byte string from pairs of hexadecimal digits. -/
def ofHexBytes? : List Char → Option Bytes
  | [] => some []
  | [_] => none
  | a :: b :: r =>
    match digitValue? 16 a, digitValue? 16 b, ofHexBytes? r with
    | some x, some y, some rest => some ((x * 16 + y).toUInt8 :: rest)
    | _, _, _ => none

end Gateway.Text
