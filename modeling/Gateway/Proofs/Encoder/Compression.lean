import Mathlib
import Gateway.Gzip

/-!
# Compressed data read back

Whatever the level of effort, the reader gets the data back from the member that the writer makes of them
(`Gzip.decompress?_compress`). The writer cuts the data into blocks, and the reader puts them together
again one by one (`Gzip.readBlocks?_block`); what follows the last block is the trailer, which it computes
from the data and compares.
-/

namespace Gateway.Gzip

/-! ## Numbers -/

@[simp] lemma length_littleEndian (width n : Nat) : (littleEndian width n).length = width := by
  induction width generalizing n with
  | zero => rfl
  | succ width ih => rw [littleEndian, List.length_cons, ih]

/-- A number that fits is read back. -/
lemma ofLittleEndian_littleEndian {width n : Nat} (h : n < 256 ^ width) :
    ofLittleEndian (littleEndian width n) = n := by
  induction width generalizing n with
  | zero =>
    have hzero : n = 0 := by simpa using h
    rw [hzero]
    rfl
  | succ width ih =>
    have hbyte : (n % 256).toUInt8.toNat = n % 256 :=
      Nat.mod_eq_of_lt (Nat.mod_lt n (by decide))
    have hrest : n / 256 < 256 ^ width := by
      apply Nat.div_lt_of_lt_mul
      rwa [← Nat.pow_succ']
    rw [littleEndian, ofLittleEndian, hbyte, ih hrest, Nat.mod_add_div]

/-! ## Blocks -/

/-- What the reader does with a block that the writer has made. -/
lemma readBlocks?_block (isLast : Bool) {bs : Bytes} (rest : Bytes) (h : bs.length ≤ blockLimit) :
    readBlocks? (block isLast bs ++ rest) =
      if isLast then some (bs, rest)
      else (readBlocks? rest).map fun p => (bs ++ p.1, p.2) := by
  have hlimit : bs.length ≤ 65535 := h
  have hlength : ofLittleEndian (littleEndian 2 bs.length) = bs.length :=
    ofLittleEndian_littleEndian (Nat.lt_succ_of_le hlimit)
  have hcheck : ofLittleEndian (littleEndian 2 (65535 - bs.length)) = 65535 - bs.length :=
    ofLittleEndian_littleEndian (Nat.lt_succ_of_le (Nat.sub_le _ _))
  -- the two numbers are two bytes each
  obtain ⟨a, b, hab⟩ : ∃ a b, littleEndian 2 bs.length = [a, b] := ⟨_, _, rfl⟩
  obtain ⟨c, d, hcd⟩ : ∃ c d, littleEndian 2 (65535 - bs.length) = [c, d] := ⟨_, _, rfl⟩
  have hbytes : block isLast bs ++ rest =
      (if isLast then 1 else 0) :: a :: b :: c :: d :: (bs ++ rest) := by
    simp [block, hab, hcd]
  rw [hab] at hlength
  rw [hcd] at hcheck
  have hfits : ofLittleEndian [c, d] + bs.length = 65535 ∧ bs.length ≤ (bs ++ rest).length := by
    rw [hcheck, List.length_append]
    omega
  rw [hbytes, readBlocks?]
  simp only [hlength, if_pos hfits, List.take_left, List.drop_left]
  cases isLast
  · rfl
  · rfl

/-- The reader gets back what the writer has cut into blocks, and stops behind the last of them. -/
lemma readBlocks?_blocks (bs rest : Bytes) : readBlocks? (blocks bs ++ rest) = some (bs, rest) := by
  induction bs using blocks.induct with
  | case1 bs hlong ih =>
    have hfull : (bs.take blockLimit).length ≤ blockLimit := List.length_take_le _ _
    rw [blocks, if_pos hlong, List.append_assoc, readBlocks?_block false _ hfull, ih]
    simp
  | case2 bs hshort => rw [blocks, if_neg hshort, readBlocks?_block true _ (Nat.le_of_not_lt hshort),
      if_pos rfl]

/-! ## Members -/

/-- The reader gets the data of every member back that the writer makes. -/
theorem decompress?_compress (level : Nat) (bs : Bytes) :
    decompress? (compress level bs) = some bs := by
  have hlength : (header level).length = 10 := rfl
  have hheader : isHeader (header level) = true := rfl
  have htake : (compress level bs).take 10 = header level := by
    rw [compress, List.append_assoc, ← hlength, List.take_left]
  have hdrop : (compress level bs).drop 10 = blocks bs ++ trailer bs := by
    rw [compress, List.append_assoc, ← hlength, List.drop_left]
  rw [decompress?, htake, hdrop, readBlocks?_blocks, if_pos hheader]
  exact if_pos rfl

end Gateway.Gzip
