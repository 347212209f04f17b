import Gateway.Digest.Crc32
/-!
# Gzip

A gzip member around a DEFLATE stream of stored blocks. Stored blocks are legal at every level of
effort, so the member reads back to the data with any reader; the level only shows in the
extra-flags byte of the header. A reader for the members written here stands beside the writer: it
checks the header, the block lengths and their complements, the check value and the length.
-/

namespace Gateway.Gzip

/-- The bytes of a number, the least significant first, cut to `width` bytes. -/
def littleEndian : Nat → Nat → Bytes
  | 0, _ => []
  | width + 1, n => (n % 256).toUInt8 :: littleEndian width (n / 256)

/-- The number written in a byte string, the least significant byte first. -/
def ofLittleEndian : Bytes → Nat
  | [] => 0
  | b :: r => b.toNat + 256 * ofLittleEndian r

/-- The largest number of bytes in a stored block. -/
def blockLimit : Nat := 65535

/-- The extra-flags byte: 4 for the fastest level, 2 for the most thorough ones, else 0. -/
def effortFlag (level : Nat) : UInt8 := if level ≤ 1 then 4 else if 9 ≤ level then 2 else 0

/-- The ten bytes of a header without name, comment or time. -/
def header (level : Nat) : Bytes := [0x1F, 0x8B, 8, 0, 0, 0, 0, 0, effortFlag level, 255]

/-- A stored block: the flag for the last one, the length, its complement and the bytes. -/
def block (isLast : Bool) (bs : Bytes) : Bytes :=
  (if isLast then 1 else 0) :: littleEndian 2 bs.length ++ littleEndian 2 (65535 - bs.length) ++ bs

/-- The stored blocks of a byte string. -/
def blocks (bs : Bytes) : Bytes :=
  if blockLimit < bs.length then
    block false (bs.take blockLimit) ++ blocks (bs.drop blockLimit)
  else block true bs
termination_by bs.length
decreasing_by simp only [List.length_drop, blockLimit] at *; omega

/-- The check value and length that end a member. -/
def trailer (bs : Bytes) : Bytes :=
  littleEndian 4 (Crc32.check bs).toNat ++ littleEndian 4 bs.length

/-- The gzip member of a byte string. -/
def compress (level : Nat) (bs : Bytes) : Bytes := header level ++ blocks bs ++ trailer bs

/-! ### Reading -/

/-- Reads stored blocks: their bytes and what follows the last one. -/
def readBlocks? (bs : Bytes) : Option (Bytes × Bytes) :=
  match bs with
  | f :: a :: b :: c :: d :: r =>
    let n := ofLittleEndian [a, b]
    if ofLittleEndian [c, d] + n = 65535 ∧ n ≤ r.length then
      if f = 1 then some (r.take n, r.drop n)
      else if f = 0 then
        (readBlocks? (r.drop n)).map fun p => (r.take n ++ p.1, p.2)
      else none
    else none
  | _ => none
termination_by bs.length
decreasing_by simp only [List.length_drop, List.length_cons]; omega

/-- Whether ten bytes are a header without name, comment or time. -/
def isHeader (h : Bytes) : Bool := h.take 8 = [0x1F, 0x8B, 8, 0, 0, 0, 0, 0] && h.length = 10

/-- The data of a gzip member of stored blocks. -/
def decompress? (bs : Bytes) : Option Bytes :=
  if isHeader (bs.take 10) then
    match readBlocks? (bs.drop 10) with
    | some (data, rest) => if rest = trailer data then some data else none
    | none => none
  else none

end Gateway.Gzip
