import Gateway.Text.Digits
/-!
# Punycode

The form in which a label with characters beyond ASCII travels. The ASCII characters come first,
then a dash, then the others as differences in a positional system whose digits have varying
weights; the weights adapt to the size of the differences.
-/

namespace Gateway.Url.Punycode

/-- The character of a digit below 36. -/
def digitChar (d : Nat) : Char := Char.ofNat (if d < 26 then 0x61 + d else 0x30 + (d - 26))

/-- The value of a digit character. -/
def digitValue? (c : Char) : Option Nat :=
  let n := c.toNat
  if 0x61 ≤ n ∧ n ≤ 0x7A then some (n - 0x61)
  else if 0x41 ≤ n ∧ n ≤ 0x5A then some (n - 0x41)
  else if 0x30 ≤ n ∧ n ≤ 0x39 then some (n - 0x30 + 26)
  else none

/-- The threshold of the digit at a position `k`, which counts in steps of 36. -/
def threshold (k bias : Nat) : Nat :=
  if k ≤ bias then 1 else if bias + 26 ≤ k then 26 else k - bias

/-- Divides a difference down to the size from which the bias is computed. -/
def reduce (delta k : Nat) : Nat × Nat :=
  if 455 < delta then reduce (delta / 35) (k + 36) else (delta, k)
termination_by delta
decreasing_by omega

/-- The bias after a difference, with the number of characters so far. -/
def adapt (delta count : Nat) (isFirst : Bool) : Nat :=
  let d := if isFirst then delta / 700 else delta / 2
  let (d, k) := reduce (d + d / count) 0
  k + 36 * d / (d + 38)

/-! ### Reading -/

/-- Reads one difference: its value and the rest. Values past 32 bits are refused. -/
def difference? (bias : Nat) : Nat → Nat → Nat → List Char → Option (Nat × List Char)
  | _, _, _, [] => none
  | k, weight, i, c :: r =>
    match digitValue? c with
    | none => none
    | some d =>
      let i := i + d * weight
      if 1 <<< 32 ≤ i then none
      else
        let t := threshold k bias
        if d < t then some (i, r) else difference? bias (k + 36) (weight * (36 - t)) i r

/-- Puts the characters of the differences into the text read so far; each step takes at least one
of `fuel` characters. -/
def insertWith? : Nat → Nat → Nat → Nat → List Char → List Char → Option (List Char)
  | _, _, _, _, out, [] => some out
  | 0, _, _, _, _, _ => none
  | fuel + 1, code, i, bias, out, s =>
    match difference? bias 36 1 i s with
    | none => none
    | some (j, r) =>
      let size := out.length + 1
      let code := code + j / size
      let place := j % size
      if (0xD800 ≤ code ∧ code ≤ 0xDFFF) ∨ 0x10FFFF < code then none
      else
        insertWith? fuel code (place + 1) (adapt (j - i) size (i = 0))
          (out.take place ++ [Char.ofNat code] ++ out.drop place) r

/-- The text of a label's Punycode form. -/
def decode? (s : List Char) : Option (List Char) :=
  let (basic, rest) := (Text.cutLast '-' s).getD ([], s)
  insertWith? rest.length 0x80 0 72 basic rest

/-! ### Writing -/

/-- The digits of a difference; `fuel` bounds their number. -/
def digitsWith : Nat → Nat → Nat → Nat → List Char
  | 0, _, _, _ => []
  | fuel + 1, bias, k, q =>
    let t := threshold k bias
    if q < t then [digitChar q]
    else digitChar (t + (q - t) % (36 - t)) :: digitsWith fuel bias (k + 36) ((q - t) / (36 - t))

/-- What has been written of a label. -/
structure Progress where
  /-- The difference so far. -/
  delta : Nat
  bias : Nat
  /-- The number of characters written. -/
  count : Nat
  out : List Char

/-- Passes over one character of the label while the characters with a given code are written. -/
def writeChar (basic code : Nat) (p : Progress) (c : Char) : Progress :=
  if c.toNat < code then { p with delta := p.delta + 1 }
  else if c.toNat = code then
    ⟨0, adapt p.delta (p.count + 1) (p.count = basic), p.count + 1,
      p.out ++ digitsWith 40 p.bias 36 p.delta⟩
  else p

/-- Writes all characters with the given codes, which rise. -/
def writeCodes (label : List Char) (basic : Nat) : List Nat → Nat → Progress → List Char
  | [], _, p => p.out
  | code :: codes, before, p =>
    let p := { p with delta := p.delta + (code - before) * (p.count + 1) }
    let p := label.foldl (writeChar basic code) p
    writeCodes label basic codes (code + 1) { p with delta := p.delta + 1 }

/-- The Punycode form of a label. -/
def encode (label : List Char) : List Char :=
  let basic := label.filter fun c => c.toNat < 0x80
  let codes := ((label.map Char.toNat).filter (0x80 ≤ ·)).mergeSort.eraseDups
  let start := if basic.isEmpty then [] else basic ++ ['-']
  writeCodes label basic.length codes 0x80 ⟨0, 72, basic.length, start⟩

end Gateway.Url.Punycode
