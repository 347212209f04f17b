import Mathlib
import Gateway.Url.Percent

/-!
# What escapes stand for

A percent sign with two hexadecimal digits behind it stands for the byte with this number, and every other
byte stands for itself, also a percent sign without two digits (`Url.Unescapes`). Bytes stand for one text
only, and it is the one that the reader gets out of them (`Url.unescapes_iff`).
-/

namespace Gateway.Url

/-- Whether a byte is the hexadecimal digit of a value, in any letter case. -/
def IsHexDigit (b : UInt8) (value : ℕ) : Prop :=
  (value < 10 ∧ b.toNat = 0x30 + value) ∨
    10 ≤ value ∧ value < 16 ∧ (b.toNat = 0x41 + (value - 10) ∨ b.toNat = 0x61 + (value - 10))

/-- Whether two bytes are the hexadecimal digits of a third one. -/
def IsHexPair (a b v : UInt8) : Prop :=
  ∃ high low, IsHexDigit a high ∧ IsHexDigit b low ∧ v.toNat = 16 * high + low

/-- Whether bytes stand for others when their escapes are undone. -/
inductive Unescapes : Bytes → Bytes → Prop where
  | nil : Unescapes [] []
  | escape {a b v : UInt8} {bs text : Bytes} (hpair : IsHexPair a b v) (h : Unescapes bs text) :
      Unescapes (0x25 :: a :: b :: bs) (v :: text)
  | plain {b : UInt8} {bs text : Bytes}
      (hplain : ∀ x y v rest, b :: bs = 0x25 :: x :: y :: rest → ¬ IsHexPair x y v)
      (h : Unescapes bs text) : Unescapes (b :: bs) (b :: text)

variable {a b v : UInt8} {value : ℕ} {bs text : Bytes}

lemma digitValue?_eq_some_iff :
    Text.digitValue? 16 (Char.ofNat b.toNat) = some value ↔ IsHexDigit b value := by
  have hbyte : (Char.ofNat b.toNat).toNat = b.toNat := by
    rw [Char.toNat_ofNat, if_pos (.inl (b.toNat_lt.trans (by decide)))]
  simp only [Text.digitValue?, hbyte, Option.ite_none_right_eq_some, Option.some.injEq, IsHexDigit]
  split_ifs <;> omega

/-- The reader of two digits gets the byte that they stand for. -/
lemma hexPair?_eq_some_iff : hexPair? a b = some v ↔ IsHexPair a b v := by
  unfold hexPair? IsHexPair
  simp only [← digitValue?_eq_some_iff]
  constructor
  · intro h
    split at h
    · next high low hhigh hlow =>
      have hlimit : high * 16 + low < 256 := by
        have hhex := digitValue?_eq_some_iff.mp hhigh
        have hhex' := digitValue?_eq_some_iff.mp hlow
        unfold IsHexDigit at hhex hhex'
        omega
      have hv : v.toNat = (high * 16 + low) % 256 := by
        rw [← Option.some.inj h]
        rfl
      exact ⟨high, low, hhigh, hlow, by omega⟩
    · cases h
  · rintro ⟨high, low, hhigh, hlow, hv⟩
    rw [hhigh, hlow]
    have hlimit := v.toNat_lt
    have hbyte : (high * 16 + low).toUInt8.toNat = v.toNat := by
      rw [hv, Nat.mul_comm]
      exact Nat.mod_eq_of_lt (by omega)
    exact congrArg some (UInt8.toNat_inj.mp hbyte)

lemma IsHexPair.unique {v' : UInt8} (h : IsHexPair a b v) (h' : IsHexPair a b v') : v = v' := by
  rw [← hexPair?_eq_some_iff] at h h'
  exact Option.some.inj (h.symm.trans h')

/-- What is read is what the bytes stand for. -/
lemma unescapes_unescape (bs : Bytes) : Unescapes bs (unescape bs) := by
  fun_induction unescape bs with
  | case1 a b r v hpair ih => exact .escape (hexPair?_eq_some_iff.mp hpair) ih
  | case2 a b r hnone ih =>
    refine .plain (fun x y v rest heq hpair => ?_) ih
    cases heq
    rw [hexPair?_eq_some_iff.mpr hpair] at hnone
    cases hnone
  | case3 b r hother ih =>
    refine .plain (fun x y v rest heq _ => ?_) ih
    obtain ⟨hb, hr⟩ := List.cons.inj heq
    exact hother x y rest hb hr
  | case4 => exact .nil

/-- Bytes stand for one text only. -/
lemma Unescapes.unique {text' : Bytes} (h : Unescapes bs text) (h' : Unescapes bs text') :
    text = text' := by
  induction h generalizing text' with
  | nil =>
    cases h'
    rfl
  | escape hpair h ih =>
    cases h' with
    | escape hpair' h' => rw [hpair.unique hpair', ih h']
    | plain hplain _ => exact absurd hpair (hplain _ _ _ _ rfl)
  | plain hplain h ih =>
    cases h' with
    | escape hpair' _ => exact absurd hpair' (hplain _ _ _ _ rfl)
    | plain _ h' => rw [ih h']

/-- Bytes stand for what the reader gets out of them, and for nothing else. -/
lemma unescapes_iff : Unescapes bs text ↔ text = unescape bs := by
  constructor
  · exact fun h => h.unique (unescapes_unescape bs)
  · rintro rfl
    exact unescapes_unescape bs

end Gateway.Url
