import Mathlib
import Gateway.Json.Token
import Gateway.Proofs.Text.Digits

/-!
# The grammar of JSON numerals

A numeral is a decimal numeral without leading zeros, with a minus sign in front, a fraction and an exponent
behind, or without. The reader reads exactly these (`numeral?_eq_some_iff`), and as a natural number only
those that have nothing but the decimal numeral.
-/

namespace Gateway.Json

/-- Whether a text is a nonempty run of digits. -/
def IsDigits (ds : List Char) : Prop := ds ≠ [] ∧ ∀ c ∈ ds, c.isDigit = true

/-- A fraction, which may be absent. -/
inductive IsFraction : List Char → Prop
  | none : IsFraction []
  | digits {ds : List Char} (hds : IsDigits ds) : IsFraction ('.' :: ds)

/-- An exponent, which may be absent. -/
inductive IsExponent : List Char → Prop
  | none : IsExponent []
  | digits {c : Char} {sign ds : List Char} (hc : c = 'e' ∨ c = 'E')
      (hsign : sign = [] ∨ sign = ['+'] ∨ sign = ['-']) (hds : IsDigits ds) :
      IsExponent (c :: (sign ++ ds))

/-- The numerals of JSON: a decimal numeral, with a sign, a fraction or an exponent or without. -/
inductive Numeral : Token → List Char → Prop
  | nat (n : ℕ) : Numeral (.nat n) (Text.decimal n)
  | other {sign fraction exponent : List Char} (n : ℕ) (hsign : sign = [] ∨ sign = ['-'])
      (hfraction : IsFraction fraction) (hexponent : IsExponent exponent)
      (hother : sign ≠ [] ∨ fraction ++ exponent ≠ []) :
      Numeral .otherNumber (sign ++ (Text.decimal n ++ (fraction ++ exponent)))

/-- Whether a run of characters of a class ends before a text. -/
def Ends (p : Char → Bool) (r : List Char) : Prop := ∀ c ∈ r.head?, p c = false

section Numerals

variable {c : Char} {w r : List Char} {t : Token} {n : ℕ}

lemma ends_nil {p : Char → Bool} : Ends p [] := fun _ hc => nomatch hc

lemma ends_cons {p : Char → Bool} (hc : p c = false) : Ends p (c :: r) := by
  rintro d ⟨⟩
  exact hc

lemma span_append {p : Char → Bool} (hw : ∀ c ∈ w, p c = true) (hr : Ends p r) :
    (w ++ r).span p = (w, r) := by
  rw [List.span_eq_takeWhile_dropWhile, List.takeWhile_append_of_pos hw,
    List.dropWhile_append_of_pos hw]
  cases r with
  | nil => rw [List.takeWhile_nil, List.dropWhile_nil, List.append_nil]
  | cons c r =>
    have hc : ¬ p c = true := Bool.eq_false_iff.mp (hr c rfl)
    rw [List.takeWhile_cons_of_neg hc, List.dropWhile_cons_of_neg hc, List.append_nil]

/-- Digits are dropped up to the first character that is none. -/
lemma dropDigits?_append (hw : IsDigits w) (hr : Ends Char.isDigit r) :
    dropDigits? (w ++ r) = some r := by
  obtain ⟨hne, hdigits⟩ := hw
  rw [dropDigits?, span_append hdigits hr]
  cases w with
  | nil => exact absurd rfl hne
  | cons c w => rfl

lemma exists_of_dropDigits? {s : List Char} (h : dropDigits? s = some r) :
    ∃ ds, IsDigits ds ∧ s = ds ++ r := by
  have hsplit : s.takeWhile Char.isDigit ++ s.dropWhile Char.isDigit = s :=
    List.takeWhile_append_dropWhile
  rw [dropDigits?, List.span_eq_takeWhile_dropWhile] at h
  refine ⟨s.takeWhile Char.isDigit, ⟨?_, fun c hc => List.mem_takeWhile_imp hc⟩, ?_⟩
  · intro hnil
    rw [hnil] at h
    cases h
  · cases hrun : s.takeWhile Char.isDigit with
    | nil =>
      rw [hrun] at h
      cases h
    | cons c ds =>
      rw [hrun] at h hsplit
      rw [← Option.some.inj h]
      exact hsplit.symm

/-- The integer part of a numeral is a decimal numeral. -/
lemma exists_of_afterInteger? {s : List Char} (h : afterInteger? s = some r) :
    ∃ n, s = Text.decimal n ++ r := by
  unfold afterInteger? at h
  split at h
  · exact ⟨0, by rw [← Option.some.inj h]; rfl⟩
  · next s hzero =>
    obtain ⟨ds, ⟨hne, hdigits⟩, rfl⟩ := exists_of_dropDigits? h
    obtain ⟨c, ds, rfl⟩ := List.exists_cons_of_ne_nil hne
    have hc : c ≠ '0' := by
      rintro rfl
      exact hzero _ rfl
    obtain ⟨n, -, hn⟩ := Text.exists_decimal_of_isDigit hc hdigits
    exact ⟨n, by rw [hn]⟩

lemma afterInteger?_append (hr : Ends Char.isDigit r) :
    afterInteger? (Text.decimal n ++ r) = some r := by
  rcases Nat.eq_zero_or_pos n with rfl | hpos
  · rfl
  · have hdrop : dropDigits? (Text.decimal n ++ r) = some r :=
      dropDigits?_append ⟨Nat.toDigits_ne_nil, fun c hc => Text.isDigit_of_mem_decimal hc⟩ hr
    have hhead := Text.head?_decimal_ne hpos
    cases hdigits : Text.decimal n with
    | nil => exact absurd hdigits Nat.toDigits_ne_nil
    | cons c ds =>
      rw [hdigits] at hdrop hhead
      unfold afterInteger?
      split
      · next heq =>
        rw [List.cons_append, List.cons.injEq] at heq
        exact absurd (congrArg some heq.1) hhead
      · exact hdrop

lemma exists_of_afterFraction? {s : List Char} (h : afterFraction? s = some r) :
    ∃ f, IsFraction f ∧ s = f ++ r := by
  unfold afterFraction? at h
  split at h
  · obtain ⟨ds, hds, rfl⟩ := exists_of_dropDigits? h
    exact ⟨'.' :: ds, .digits hds, rfl⟩
  · exact ⟨[], .none, Option.some.inj h⟩

lemma isExponent_of_afterExponent? {s : List Char} (h : afterExponent? s = some []) :
    IsExponent s := by
  unfold afterExponent? at h
  split at h
  · next c r =>
    split_ifs at h with hc
    · split at h
      · obtain ⟨ds, hds, rfl⟩ := exists_of_dropDigits? h
        exact .digits hc (.inr (.inl rfl)) (by simpa using hds)
      · obtain ⟨ds, hds, rfl⟩ := exists_of_dropDigits? h
        exact .digits hc (.inr (.inr rfl)) (by simpa using hds)
      · obtain ⟨ds, hds, rfl⟩ := exists_of_dropDigits? h
        rw [List.append_nil]
        exact .digits hc (.inl rfl) hds
    · cases h
  · exact .none

lemma IsExponent.ends (he : IsExponent w) : Ends Char.isDigit w := by
  rcases he with _ | ⟨rfl | rfl, _, _⟩
  · exact ends_nil
  · exact ends_cons rfl
  · exact ends_cons rfl

lemma IsDigits.dropDigits? (hw : IsDigits w) : Json.dropDigits? w = some [] := by
  simpa using dropDigits?_append hw ends_nil

lemma IsExponent.afterExponent? (he : IsExponent w) : Json.afterExponent? w = some [] := by
  rcases he with _ | ⟨hc, rfl | rfl | rfl, hds⟩
  · rfl
  · unfold Json.afterExponent?
    simp only [List.nil_append, if_pos hc]
    split
    · exact absurd (hds.2 '+' List.mem_cons_self) (by decide)
    · exact absurd (hds.2 '-' List.mem_cons_self) (by decide)
    · exact hds.dropDigits?
  · unfold Json.afterExponent?
    simpa only [List.cons_append, List.nil_append, if_pos hc] using hds.dropDigits?
  · unfold Json.afterExponent?
    simpa only [List.cons_append, List.nil_append, if_pos hc] using hds.dropDigits?

lemma IsFraction.afterFraction? (hw : IsFraction w) (hr : IsExponent r) :
    Json.afterFraction? (w ++ r) = some r := by
  rcases hw with _ | hds
  · rcases hr with _ | ⟨rfl | rfl, _, _⟩
    · rfl
    · rfl
    · rfl
  · exact dropDigits?_append hds hr.ends

/-- What may stand behind the integer part of a numeral is a fraction and an exponent. -/
lemma afterFraction?_bind_eq_some_iff : (afterFraction? r).bind afterExponent? = some [] ↔
    ∃ fraction exponent, IsFraction fraction ∧ IsExponent exponent ∧ r = fraction ++ exponent := by
  constructor
  · intro h
    obtain ⟨e, he, hexponent⟩ := Option.bind_eq_some_iff.mp h
    obtain ⟨f, hf, rfl⟩ := exists_of_afterFraction? he
    exact ⟨f, e, hf, isExponent_of_afterExponent? hexponent, rfl⟩
  · rintro ⟨f, e, hf, he, rfl⟩
    rw [hf.afterFraction? he, Option.bind_some, he.afterExponent?]

lemma IsFraction.ends_append (hw : IsFraction w) (hr : IsExponent r) : Ends Char.isDigit (w ++ r) := by
  rcases hw with _ | hds
  · exact hr.ends
  · exact ends_cons rfl

lemma head?_decimal_ne_minus (n : ℕ) (r : List Char) : (Text.decimal n ++ r).head? ≠ some '-' := by
  intro h
  rw [Text.decimal, List.head?_append_of_ne_nil _ Nat.toDigits_ne_nil] at h
  exact absurd (Text.isDigit_of_mem_decimal (List.mem_of_head? h)) (by decide)

/-- Behind a minus sign, what stands behind the integer part makes no difference. -/
lemma numeral?_minus (u : List Char) : numeral? ('-' :: u) = some t ↔
    ∃ r, afterInteger? u = some r ∧ (afterFraction? r).bind afterExponent? = some [] ∧
      t = .otherNumber := by
  simp only [numeral?]
  rcases afterInteger? u with _ | _ | ⟨c, r⟩
  · simp
  · simp [afterFraction?, afterExponent?, eq_comm]
  · simp only [Option.some.injEq, exists_eq_left']
    split
    · next h => simp [h, eq_comm]
    · next h => simpa using fun hrest => absurd hrest h

/-- Without a minus sign, a numeral is a natural number if nothing stands behind the integer part. -/
lemma numeral?_of_head?_ne (hw : w.head? ≠ some '-') : numeral? w = some t ↔
    ∃ r, afterInteger? w = some r ∧ (afterFraction? r).bind afterExponent? = some [] ∧
      if r = [] then (Text.value? 10 w).map Token.nat = some t else t = .otherNumber := by
  have hunsigned : ∀ r, w = '-' :: r → False := fun r h => hw (by rw [h]; rfl)
  rw [numeral?.eq_def]
  simp only [if_neg hw]
  rcases afterInteger? w with _ | _ | ⟨c, r⟩
  · simp
  · simp [afterFraction?, afterExponent?]
  · simp only [Option.some.injEq, exists_eq_left', reduceCtorEq, if_false]
    split
    · next h => simp [h, eq_comm]
    · next h => simpa using fun hrest => absurd hrest h

/-- The reader of numerals reads exactly the numerals. -/
lemma numeral?_eq_some_iff : numeral? w = some t ↔ Numeral t w := by
  constructor
  · intro h
    by_cases hminus : w.head? = some '-'
    · obtain ⟨u, rfl⟩ := List.head?_eq_some_iff.mp hminus
      obtain ⟨r, hinteger, hrest, rfl⟩ := (numeral?_minus u).mp h
      obtain ⟨n, rfl⟩ := exists_of_afterInteger? hinteger
      obtain ⟨f, e, hf, he, rfl⟩ := afterFraction?_bind_eq_some_iff.mp hrest
      exact .other n (.inr rfl) hf he (.inl (List.cons_ne_nil _ _))
    · obtain ⟨r, hinteger, hrest, ht⟩ := (numeral?_of_head?_ne hminus).mp h
      obtain ⟨n, rfl⟩ := exists_of_afterInteger? hinteger
      obtain ⟨f, e, hf, he, rfl⟩ := afterFraction?_bind_eq_some_iff.mp hrest
      split_ifs at ht with hnil
      · rw [hnil, List.append_nil, Text.value?_decimal, Option.map_some, Option.some.injEq] at ht
        rw [hnil, List.append_nil, ← ht]
        exact .nat n
      · rw [ht]
        exact .other n (.inl rfl) hf he (.inr hnil)
  · rintro (n | @⟨sign, f, e, n, hsign, hf, he, hother⟩)
    · have hinteger : afterInteger? (Text.decimal n) = some [] := by
        simpa using afterInteger?_append (n := n) ends_nil
      have hminus : (Text.decimal n).head? ≠ some '-' := by
        simpa using head?_decimal_ne_minus n []
      refine (numeral?_of_head?_ne hminus).mpr ⟨[], hinteger, rfl, ?_⟩
      rw [if_pos rfl, Text.value?_decimal, Option.map_some]
    · have hinteger : afterInteger? (Text.decimal n ++ (f ++ e)) = some (f ++ e) :=
        afterInteger?_append (hf.ends_append he)
      have hrest := afterFraction?_bind_eq_some_iff.mpr ⟨f, e, hf, he, rfl⟩
      rcases hsign with rfl | rfl
      · have hne : f ++ e ≠ [] := hother.resolve_left fun h => h rfl
        refine (numeral?_of_head?_ne (head?_decimal_ne_minus n _)).mpr ⟨f ++ e, hinteger, hrest, ?_⟩
        rw [if_neg hne]
      · exact (numeral?_minus _).mpr ⟨f ++ e, hinteger, hrest, rfl⟩

lemma isNumeralChar_of_isDigit (h : c.isDigit = true) : isNumeralChar c = true := by
  simp only [isNumeralChar, h, Bool.true_or]

/-- A numeral consists of characters that can belong to one. -/
lemma Numeral.isNumeralChar (h : Numeral t w) : ∀ c ∈ w, isNumeralChar c = true := by
  have hdecimal (n : ℕ) : ∀ c ∈ Text.decimal n, Json.isNumeralChar c = true := fun c hc =>
    isNumeralChar_of_isDigit (Text.isDigit_of_mem_decimal hc)
  have hdigits {ds : List Char} (hds : IsDigits ds) : ∀ c ∈ ds, Json.isNumeralChar c = true :=
    fun c hc => isNumeralChar_of_isDigit (hds.2 c hc)
  rcases h with n | @⟨sign, f, e, n, hsign, hf, he, -⟩
  · exact hdecimal n
  · simp only [List.forall_mem_append]
    refine ⟨?_, hdecimal n, ?_, ?_⟩
    · rcases hsign with rfl | rfl <;> simp [Json.isNumeralChar]
    · rcases hf with _ | hds
      · simp
      · exact List.forall_mem_cons.mpr ⟨rfl, hdigits hds⟩
    · rcases he with _ | ⟨hc, hsign, hds⟩
      · simp
      · refine List.forall_mem_cons.mpr ⟨?_, List.forall_mem_append.mpr ⟨?_, hdigits hds⟩⟩
        · rcases hc with rfl | rfl <;> rfl
        · rcases hsign with rfl | rfl | rfl <;> simp [Json.isNumeralChar]

/-- The machine begins a numeral at the first character of one. -/
lemma Numeral.begin? (h : Numeral t w) :
    ∃ c v, w = c :: v ∧ Json.begin? c = some ([], .numeral [c]) := by
  have hdecimal (n : ℕ) (r : List Char) : ∃ c v, Text.decimal n ++ r = c :: v ∧
      Json.begin? c = some ([], .numeral [c]) := by
    obtain ⟨c, ds, hds⟩ := List.exists_cons_of_ne_nil (Nat.toDigits_ne_nil (n := n) (b := 10))
    have hdigit : c ∈ Text.decimal n := by
      rw [Text.decimal, hds]
      exact List.mem_cons_self
    obtain ⟨k, hk, rfl⟩ := Text.exists_digitChar_of_isDigit (Text.isDigit_of_mem_decimal hdigit)
    refine ⟨_, ds ++ r, by rw [Text.decimal, hds, List.cons_append], ?_⟩
    interval_cases k <;> rfl
  rcases h with n | @⟨sign, f, e, n, rfl | rfl, -, -, -⟩
  · simpa using hdecimal n []
  · exact hdecimal n (f ++ e)
  · exact ⟨'-', _, rfl, rfl⟩

end Numerals

end Gateway.Json
