import Mathlib
import Gateway.Proofs.Encoder.Validator
import Gateway.Proofs.Text.Cutting
import Gateway.Proofs.Text.Digits

/-!
# What a validator stands for

A validator is the digest of the text of a transformation with the bytes of a source right behind it, and
nothing between the two. The text can nevertheless be told from the bytes, whatever they are: every member
of it ends with a byte that its value does not have (`Validator.selfDelimiting_member`), so that the text as
a whole is self-delimiting (`Validator.selfDelimiting_json`). Hence what is digested belongs to one source
and one transformation only (`Validator.input_inj`), and two different requests have the same validator
only if their digests collide. Of the digest nothing is used but its length (`Validator.length_digest`).
-/

namespace Gateway

namespace Text

/-- Whether a way of writing tells where what is written ends, whatever follows. -/
def SelfDelimiting {α β : Type} (write : α → List β) : Prop :=
  ∀ a b s t, write a ++ s = write b ++ t → a = b ∧ s = t

end Text

namespace Validator

/-! ## The text of a transformation -/

section Members

variable {α : Type}

/-- A member of the text: a key, a value and the byte that ends it. -/
def member (key : String) (value : α → String) (stop : UInt8) (a : α) : Bytes :=
  Utf8.ofString key ++ Utf8.ofString (value a) ++ [stop]

/-- Letters and digits are visible. -/
lemma isMark_of_isAlphanum {c : Char} (h : c.isAlphanum = true) : Http.IsMark c := by
  simp only [Char.isAlphanum, Char.isAlpha, Char.isUpper, Char.isLower, Char.isDigit,
    Bool.or_eq_true, Bool.and_eq_true, decide_eq_true_eq, UInt32.le_iff_toNat_le, ge_iff_le] at h
  change ((0x41 ≤ c.toNat ∧ c.toNat ≤ 0x5A) ∨ (0x61 ≤ c.toNat ∧ c.toNat ≤ 0x7A)) ∨
    (0x30 ≤ c.toNat ∧ c.toNat ≤ 0x39) at h
  unfold Http.IsMark
  omega

/-- A member is self-delimiting if different values are written differently, in letters and digits, and
the byte that ends it is neither. -/
lemma selfDelimiting_member {key : String} {value : α → String} {stop : UInt8}
    (hvalue : Function.Injective value) (hchars : ∀ a, ∀ c ∈ (value a).toList, c.isAlphanum = true)
    (hstop : (Http.charOf stop).isAlphanum = false) :
    Text.SelfDelimiting (member key value stop) := by
  intro a b s t h
  have hread (a : α) : (Utf8.ofString (value a)).map Http.charOf = (value a).toList :=
    Http.map_charOf_encode fun c hc => isMark_of_isAlphanum (hchars a c hc)
  have hnot (a : α) : stop ∉ Utf8.ofString (value a) := by
    intro hmem
    have halphanum := hchars a _ (hread a ▸ List.mem_map_of_mem hmem)
    exact absurd halphanum (by rw [hstop]; exact Bool.false_ne_true)
  have hcut : Utf8.ofString (value a) ++ stop :: s = Utf8.ofString (value b) ++ stop :: t := by
    simpa [member] using h
  obtain ⟨hbytes, hrest⟩ := Text.append_cons_inj (hnot a) (hnot b) hcut
  have htext : (value a).toList = (value b).toList := by rw [← hread a, ← hread b, hbytes]
  exact ⟨hvalue (String.toList_inj.mp htext), hrest⟩

end Members

open Image.Transform in
/-- The text of a transformation, member by member. -/
lemma ofString_json (t : Image.Transform) :
    Utf8.ofString t.json =
      member "\x7b\"resize\":\"" Image.Fitting.name 0x22 t.fitting ++
      (member ",\"width\":" numeral 0x2C t.width.toNat ++
      (member "\"height\":" numeral 0x2C t.height.toNat ++
      (member "\"enlarge\":" flagText 0x2C t.enlarge ++
      (member "\"quality\":" numeral 0x2C t.quality.toNat ++
      (member "\"format\":\"" Image.Format.name 0x22 t.format ++ [0x7D]))))) := by
  have hwidth : Utf8.ofString "\",\"width\":" = 0x22 :: Utf8.ofString ",\"width\":" := by
    decide +kernel
  have hheight : Utf8.ofString ",\"height\":" = 0x2C :: Utf8.ofString "\"height\":" := by
    decide +kernel
  have henlarge : Utf8.ofString ",\"enlarge\":" = 0x2C :: Utf8.ofString "\"enlarge\":" := by
    decide +kernel
  have hquality : Utf8.ofString ",\"quality\":" = 0x2C :: Utf8.ofString "\"quality\":" := by
    decide +kernel
  have hformat : Utf8.ofString ",\"format\":\"" = 0x2C :: Utf8.ofString "\"format\":\"" := by
    decide +kernel
  have hend : Utf8.ofString "\"\x7d" = [0x22, 0x7D] := by decide +kernel
  unfold Image.Transform.json
  repeat rw [Utf8.ofString_append]
  rw [hwidth, hheight, henlarge, hquality, hformat, hend]
  simp only [member, List.append_assoc, List.cons_append, List.nil_append]

/-- A number is ended by a comma. -/
lemma selfDelimiting_numeral (key : String) :
    Text.SelfDelimiting (member key Image.Transform.numeral 0x2C) := by
  apply selfDelimiting_member _ _ (by decide)
  · intro m n h
    exact Text.decimal_injective (String.ofList_injective h)
  · intro n c hc
    rw [Image.Transform.numeral, String.toList_ofList] at hc
    exact Bool.or_eq_true_iff.mpr (.inr (Text.isDigit_of_mem_decimal hc))

/-- A flag is ended by a comma. -/
lemma selfDelimiting_flag (key : String) :
    Text.SelfDelimiting (member key Image.Transform.flagText 0x2C) := by
  apply selfDelimiting_member _ _ (by decide)
  · decide +kernel
  · simp [Image.Transform.flagText]

/-- A way of fitting is ended by a quote. -/
lemma selfDelimiting_fitting (key : String) :
    Text.SelfDelimiting (member key Image.Fitting.name 0x22) := by
  apply selfDelimiting_member _ _ (by decide)
  · intro a b
    cases a <;> cases b <;> decide +kernel
  · intro a
    cases a <;> simp [Image.Fitting.name]

/-- A format is ended by a quote. -/
lemma selfDelimiting_format (key : String) :
    Text.SelfDelimiting (member key Image.Format.name 0x22) := by
  apply selfDelimiting_member _ _ (by decide)
  · intro a b
    cases a <;> cases b <;> decide +kernel
  · intro a
    cases a <;> simp [Image.Format.name]

/-- The text of a transformation can be told from whatever follows it. -/
lemma selfDelimiting_json : Text.SelfDelimiting fun t : Image.Transform => Utf8.ofString t.json := by
  intro t u r s h
  simp only [ofString_json, List.append_assoc] at h
  obtain ⟨hfitting, h⟩ := selfDelimiting_fitting _ _ _ _ _ h
  obtain ⟨hwidth, h⟩ := selfDelimiting_numeral _ _ _ _ _ h
  obtain ⟨hheight, h⟩ := selfDelimiting_numeral _ _ _ _ _ h
  obtain ⟨henlarge, h⟩ := selfDelimiting_flag _ _ _ _ _ h
  obtain ⟨hquality, h⟩ := selfDelimiting_numeral _ _ _ _ _ h
  obtain ⟨hformat, h⟩ := selfDelimiting_format _ _ _ _ _ h
  have ht := (Image.Transform.mk.injEq ..).mpr ⟨hfitting, UInt32.toNat_inj.mp hwidth,
    UInt32.toNat_inj.mp hheight, henlarge, UInt8.toNat_inj.mp hquality, hformat⟩
  exact ⟨ht, (List.cons.inj h).2⟩

/-! ## The digest -/

/-- Whether two messages are a collision of a digest. -/
def Collides (digest : Bytes → Bytes) (m n : Bytes) : Prop := m ≠ n ∧ digest m = digest n

section Digest

variable {source source' : Bytes} {t t' : Image.Transform} {digest : Bytes → Bytes}

lemma length_bigEndian (width n : ℕ) : (Sha256.bigEndian width n).length = width := by
  induction width generalizing n with
  | zero => rfl
  | succ width ih => rw [Sha256.bigEndian, List.length_append, ih, List.length_singleton]

/-- The usual digest has 32 bytes. -/
lemma length_digest (m : Bytes) : (Sha256.digest m).length = 32 := by
  simp only [Sha256.digest, Sha256.State.bytes, Sha256.wordBytes, List.length_append,
    length_bigEndian]

/-- What is digested belongs to one source and one transformation only. -/
lemma input_inj : input source t = input source' t' ↔ source = source' ∧ t = t' := by
  constructor
  · intro h
    obtain ⟨ht, hsource⟩ := selfDelimiting_json _ _ _ _ h
    exact ⟨hsource, ht⟩
  · rintro ⟨rfl, rfl⟩
    rfl

/-- Validators are equal if the digests are. -/
lemma calculate_inj : calculate source t digest = calculate source' t' digest ↔
    digest (input source t) = digest (input source' t') := by
  simp only [calculate, List.append_cancel_right_eq, List.append_cancel_left_eq,
    Text.hexBytes_injective.eq_iff]

/-- What is digested tells the source and the transformation, so that with any digest of 32 bytes different
requests have the same validator only if the digest collides on them; and a validator is always a quoted text
of 64 hexadecimal digits in lower case, which is a legal field value. -/
theorem faithful_calculate (hlength : ∀ m, (digest m).length = 32) :
    (∀ source source' t t', input source t = input source' t' ↔ source = source' ∧ t = t') ∧
    (∀ source source' t t', calculate source t digest = calculate source' t' digest ↔
      (source = source' ∧ t = t') ∨ Collides digest (input source t) (input source' t')) ∧
    ∀ source t, (∃ digits, calculate source t digest = '"' :: digits ++ ['"'] ∧ digits.length = 64 ∧
        ∀ c ∈ digits, Text.IsLowerHex c) ∧
      Http.isValue (Utf8.encode (calculate source t digest)) = true := by
  refine ⟨fun _ _ _ _ => input_inj, fun source source' t t' => ?_, fun source t => ⟨?_, ?_⟩⟩
  · rw [calculate_inj, ← input_inj, Collides]
    constructor
    · intro h
      by_cases hinput : input source t = input source' t'
      · exact .inl hinput
      · exact .inr ⟨hinput, h⟩
    · rintro (hinput | ⟨-, h⟩)
      · rw [hinput]
      · exact h
  · refine ⟨Text.hexBytes (digest (input source t)), rfl, ?_, fun c hc => ?_⟩
    · rw [Text.length_hexBytes, hlength]
    · exact Text.isLowerHex_of_mem_hexBytes hc
  · exact Http.isValue_of_isVisible (Http.isVisible_encode fun c hc => (isMark_calculate hc).1)

/-- A source that begins with the text of a transformation has another validator than what follows there. -/
theorem faithful_of_nestedText :
    (∀ m, (Sha256.digest m).length = 32) ∧
      calculate (input [1] .standard) .standard ≠ calculate [1] .standard ∧
      ∃ digits, calculate [1] .standard = '"' :: digits ++ ['"'] ∧ digits.length = 64 := by
  obtain ⟨-, hcollides, hshape⟩ := faithful_calculate length_digest
  refine ⟨length_digest, ?_, ?_⟩
  · rw [ne_eq, hcollides]
    rintro (⟨hsource, -⟩ | ⟨-, hdigest⟩)
    · exact absurd hsource (by decide +kernel)
    · exact absurd hdigest (by decide +kernel)
  · obtain ⟨⟨digits, hdigits, hsize, -⟩, -⟩ := hshape [1] .standard
    exact ⟨digits, hdigits, hsize⟩

end Digest

end Validator

end Gateway
