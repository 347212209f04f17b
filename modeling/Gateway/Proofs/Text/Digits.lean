import Mathlib
import Gateway.Text.Digits

/-!
# Numerals that are read back

A decimal numeral consists of digits and belongs to one number only, with any number of zeros in front of
it to fill up a fixed width (`Text.isNumeral_padded`). The hexadecimal form of a byte string has two digits
in lower case for each byte and belongs to one byte string only.
-/

namespace Gateway.Text

/-- Whether a character is a hexadecimal digit in lower case. -/
def IsLowerHex (c : Char) : Prop := c.isDigit ∨ 'a' ≤ c ∧ c ≤ 'f'

lemma isLowerHex_digitChar : ∀ n < 16, IsLowerHex n.digitChar := by
  unfold IsLowerHex
  decide

/-- The hexadecimal form of a byte string consists of digits in lower case. -/
lemma isLowerHex_of_mem_hexBytes {bs : Bytes} {c : Char} (hc : c ∈ hexBytes bs) : IsLowerHex c := by
  obtain ⟨b, -, hdigit⟩ := List.mem_flatMap.mp hc
  have hbyte := b.toNat_lt
  rcases List.mem_pair.mp hdigit with rfl | rfl
  · exact isLowerHex_digitChar _ (by omega)
  · exact isLowerHex_digitChar _ (by omega)

/-- The hexadecimal form of a byte string has two digits for each byte. -/
lemma length_hexBytes (bs : Bytes) : (hexBytes bs).length = 2 * bs.length := by
  induction bs with
  | nil => rfl
  | cons b bs ih =>
    rw [hexBytes, List.flatMap_cons, List.length_append, ← hexBytes, ih, List.length_cons, hexByte]
    simp
    omega

/-- Different digits are written differently. -/
lemma digitChar_injOn : ∀ m < 16, ∀ n < 16, m.digitChar = n.digitChar → m = n := by
  decide

/-- A hexadecimal form belongs to one byte string only. -/
lemma hexBytes_injective : Function.Injective hexBytes := by
  intro a b h
  induction a generalizing b with
  | nil =>
    have hlength := congrArg List.length h
    rw [length_hexBytes, length_hexBytes] at hlength
    exact (List.length_eq_zero_iff.mp (by simpa using hlength.symm)).symm
  | cons x a ih =>
    rcases b with _ | ⟨y, b⟩
    · exact absurd h (by simp [hexBytes, hexByte])
    have hx := x.toNat_lt
    have hy := y.toNat_lt
    simp only [hexBytes, List.flatMap_cons, hexByte, List.cons_append, List.nil_append,
      List.cons.injEq] at h
    obtain ⟨hhigh, hlow, hrest⟩ := h
    have hbyte : x.toNat = y.toNat := by
      have hquot := digitChar_injOn _ (by omega) _ (by omega) hhigh
      have hrem := digitChar_injOn _ (by omega) _ (by omega) hlow
      omega
    rw [UInt8.toNat_inj.mp hbyte, ih hrest]

/-- A decimal numeral consists of digits. -/
lemma isDigit_of_mem_decimal {n : ℕ} {c : Char} (hc : c ∈ decimal n) : c.isDigit = true :=
  Nat.isDigit_of_mem_toDigits (by decide) (by decide) hc

/-- A decimal numeral belongs to one number only. -/
lemma decimal_injective : Function.Injective decimal := by
  intro m n h
  rw [← Nat.ofDigitChars_ten_toDigits (n := m), ← Nat.ofDigitChars_ten_toDigits (n := n)]
  exact congrArg _ h

lemma ofNat_eq_digitChar : ∀ k < 10, Char.ofNat (48 + k) = k.digitChar := by
  decide

/-- A digit is the digit of a number below ten. -/
lemma exists_digitChar_of_isDigit {c : Char} (h : c.isDigit = true) : ∃ k < 10, c = k.digitChar := by
  obtain ⟨hlow, hhigh⟩ : 48 ≤ c.toNat ∧ c.toNat ≤ 57 := Char.isDigit_iff_toNat.mp h
  have hlt : c.toNat - 48 < 10 := by omega
  refine ⟨c.toNat - 48, hlt, ?_⟩
  rw [← ofNat_eq_digitChar _ hlt, Nat.add_sub_cancel' hlow, Char.ofNat_toNat]

lemma digitValue?_digitChar : ∀ k < 10, digitValue? 10 k.digitChar = some k := by
  decide

/-- A decimal numeral is read back. -/
lemma value?_decimal (n : ℕ) : value? 10 (decimal n) = some n := by
  have hread (s : List Char) (hs : ∀ c ∈ s, c.isDigit = true) (acc : ℕ) :
      valueFrom? 10 acc s = some (Nat.ofDigitChars 10 s acc) := by
    induction s generalizing acc with
    | nil => rw [valueFrom?, Nat.ofDigitChars_nil]
    | cons c s ih =>
      obtain ⟨k, hk, rfl⟩ := exists_digitChar_of_isDigit (hs c List.mem_cons_self)
      rw [valueFrom?, digitValue?_digitChar k hk, Nat.ofDigitChars_cons_digitChar_of_lt_ten hk,
        Nat.mul_comm]
      exact ih (fun d hd => hs d (List.mem_cons_of_mem _ hd)) _
  have hne : (decimal n).isEmpty = false := List.isEmpty_eq_false_iff.mpr Nat.toDigits_ne_nil
  rw [value?, hne, if_neg Bool.false_ne_true, hread _ fun c hc => isDigit_of_mem_decimal hc]
  exact congrArg some Nat.ofDigitChars_ten_toDigits

/-- Digits of which the first is not a zero are a decimal numeral. -/
lemma exists_decimal_of_isDigit {c : Char} {s : List Char} (hc : c ≠ '0')
    (h : ∀ d ∈ c :: s, d.isDigit = true) : ∃ n, 0 < n ∧ c :: s = decimal n := by
  induction s using List.reverseRecOn with
  | nil =>
    obtain ⟨k, hk, rfl⟩ := exists_digitChar_of_isDigit (h c List.mem_cons_self)
    refine ⟨k, Nat.pos_of_ne_zero ?_, (Nat.toDigits_of_lt_base hk).symm⟩
    rintro rfl
    exact hc rfl
  | append_singleton s d ih =>
    rw [← List.cons_append, List.forall_mem_append] at h
    obtain ⟨n, hpos, hn⟩ := ih h.1
    obtain ⟨k, hk, rfl⟩ := exists_digitChar_of_isDigit (h.2 d List.mem_cons_self)
    refine ⟨10 * n + k, by omega, ?_⟩
    rw [← List.cons_append, hn, ← Nat.toDigits_of_lt_base hk]
    exact Nat.toDigits_append_toDigits (by decide) hpos hk

/-- A decimal numeral has no leading zero, unless it is the zero. -/
lemma head?_decimal_ne {n : ℕ} (h : 0 < n) : (decimal n).head? ≠ some '0' := by
  induction n using Nat.strongRecOn with
  | ind n ih =>
    by_cases hlt : n < 10
    · intro hzero
      rw [decimal, Nat.toDigits_of_lt_base hlt, List.head?_cons, Option.some.injEq] at hzero
      have hn : n = 0 := digitChar_injOn n (by omega) 0 (by decide) hzero
      omega
    · have hhead : (decimal n).head? = (decimal (n / 10)).head? := by
        rw [decimal, Nat.toDigits_of_base_le (by decide) (by omega),
          List.head?_append_of_ne_nil _ Nat.toDigits_ne_nil, decimal]
      rw [hhead]
      exact ih (n / 10) (by omega) (by omega)

/-- Whether a text is a decimal numeral of a fixed width. -/
structure IsNumeral (width n : ℕ) (s : List Char) : Prop where
  length : s.length = width
  digits : ∀ c ∈ s, c.isDigit = true
  value : Nat.ofDigitChars 10 s 0 = n

/-- A number that has room in a width is written in that width. -/
lemma isNumeral_padded {width n : ℕ} (hwidth : 0 < width) (h : n < 10 ^ width) :
    IsNumeral width n (padded 10 width n) where
  length := by
    have hroom := (Nat.length_toDigits_le_iff (by decide) hwidth).mpr h
    simp only [padded, List.length_append, List.length_replicate]
    omega
  digits c hc := by
    rcases List.mem_append.mp hc with hzero | hdigit
    · rw [List.eq_of_mem_replicate hzero]
      rfl
    · exact isDigit_of_mem_decimal hdigit
  value := by
    rw [padded, Nat.ofDigitChars_append, Nat.ofDigitChars_replicate_zero, Nat.mul_zero,
      Nat.ofDigitChars_ten_toDigits]

end Gateway.Text
