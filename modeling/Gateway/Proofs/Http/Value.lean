import Mathlib
import Gateway.Access.CrossOrigin
import Gateway.Access.Secret

/-!
# Reading field values

A field value is read as a text if it is made of visible ASCII, blanks and tabs (`Http.IsVisible`), and
a text of visible ASCII is written as a value that is read back (`Http.visible?_encode`). Between the two
the bytes and the characters correspond one by one, so that searching and cutting mean the same on both
sides: a text occurs in another one if it is a part of it (`Text.occursIn_iff`), and the pieces of a
joined list are the pieces of its parts (`Text.split_join`).

The last section says what the operations on lists of fields do to the values of one name.
-/

namespace Gateway

namespace Text

section Cutting

variable {α : Type}

/-- What is done to every element can be done before the parts are joined. -/
lemma map_join {β : Type} (f : α → β) (sep : List α) (ls : List (List α)) :
    (join sep ls).map f = join (sep.map f) (ls.map (List.map f)) := by
  induction ls with
  | nil => rfl
  | cons p ls ih =>
    rcases ls with _ | ⟨q, r⟩
    · rfl
    · simp only [join, List.map_append, ih, List.map_cons]

/-- If different elements stay different, one text is a part of another one just as before. -/
lemma map_infix_map_iff {β : Type} {f : α → β} (hf : Function.Injective f) {xs ys : List α} :
    xs.map f <:+: ys.map f ↔ xs <:+: ys := by
  constructor
  · rintro ⟨front, back, h⟩
    obtain ⟨ls, rest, rfl, hls, -⟩ := List.map_eq_append_iff.mp h.symm
    obtain ⟨left, mid, rfl, -, hmid⟩ := List.map_eq_append_iff.mp hls
    obtain rfl := List.map_injective_iff.mpr hf hmid
    exact ⟨left, rest, rfl⟩
  · rintro ⟨front, back, rfl⟩
    exact ⟨front.map f, back.map f, by simp⟩

/-- What is trimmed at the beginning is what is in front of the first element that stays. -/
lemma dropWhile_pad {p : α → Bool} {left mid rest : List α} (hleft : ∀ c ∈ left, p c = true)
    (hmid : mid ≠ []) (hhead : p (mid.head hmid) = false) :
    (left ++ (mid ++ rest)).dropWhile p = mid ++ rest := by
  rw [List.dropWhile_append_of_pos hleft]
  obtain ⟨c, r, rfl⟩ := List.exists_cons_of_ne_nil hmid
  exact List.dropWhile_cons_of_neg (by simpa using hhead)

/-- Trimming takes away everything around a text that neither begins nor ends with what is trimmed. -/
lemma trimBy_pad {p : α → Bool} {left mid right : List α} (hleft : ∀ c ∈ left, p c = true)
    (hright : ∀ c ∈ right, p c = true) (hmid : mid ≠ []) (hhead : p (mid.head hmid) = false)
    (hlast : p (mid.getLast hmid) = false) : trimBy p (left ++ mid ++ right) = mid := by
  have hreverse : (mid ++ right).reverse.dropWhile p = mid.reverse := by
    have hblank : ∀ c ∈ right.reverse, p c = true := fun c hc => hright c (List.mem_reverse.mp hc)
    have hback : mid.reverse ≠ [] := mt List.reverse_eq_nil_iff.mp hmid
    have hfirst : p (mid.reverse.head hback) = false := by
      rw [List.head_reverse]
      exact hlast
    have hdrop := @dropWhile_pad _ _ _ _ [] hblank hback hfirst
    rwa [List.append_nil, ← List.reverse_append] at hdrop
  rw [trimBy, List.append_assoc, dropWhile_pad hleft hmid hhead, hreverse, List.reverse_reverse]

variable [DecidableEq α]

/-- A text occurs inside another one if it is a part of it. -/
lemma occursIn_iff {needle s : List α} : occursIn needle s = true ↔ needle <:+: s := by
  induction s with
  | nil => simp [occursIn]
  | cons c r ih => rw [occursIn, Bool.or_eq_true, ih, List.isPrefixOf_iff_prefix, List.infix_cons_iff]

lemma split_ne_nil (sep : α) (s : List α) : split sep s ≠ [] := by
  cases s with
  | nil => simp [split]
  | cons c r =>
    rw [split]
    split
    · exact List.cons_ne_nil _ _
    · split <;> exact List.cons_ne_nil _ _

/-- Without a separator there is one piece. -/
lemma split_of_not_mem {sep : α} {s : List α} (h : sep ∉ s) : split sep s = [s] := by
  induction s with
  | nil => rfl
  | cons c r ih =>
    obtain ⟨hc, hr⟩ := not_or.mp (mt List.mem_cons.mpr h)
    rw [split, if_neg (Ne.symm hc), ih hr]

/-- The pieces on both sides of a separator are cut apart from each other. -/
lemma split_append_cons (sep : α) (xs ys : List α) :
    split sep (xs ++ sep :: ys) = split sep xs ++ split sep ys := by
  induction xs with
  | nil => simp [split]
  | cons c r ih =>
    rw [List.cons_append, split, ih, split]
    by_cases hc : c = sep
    · rw [if_pos hc, if_pos hc]
      rfl
    · rw [if_neg hc, if_neg hc]
      rcases hr : split sep r with _ | ⟨p, ps⟩
      · exact absurd hr (split_ne_nil sep r)
      · rfl

/-- The pieces of a joined list are those of its parts. -/
lemma split_join {sep : α} {ls : List (List α)} (h : ls ≠ []) :
    split sep (join [sep] ls) = ls.flatMap (split sep) := by
  induction ls with
  | nil => exact absurd rfl h
  | cons p ls ih =>
    rcases ls with _ | ⟨q, r⟩
    · simp [join]
    · have hjoin : join [sep] (p :: q :: r) = p ++ sep :: join [sep] (q :: r) := by
        simp [join]
      rw [hjoin, split_append_cons, ih (List.cons_ne_nil q r)]
      rfl

end Cutting

end Text

namespace Utf8

/-! ## Texts of visible ASCII -/

lemma encode_append (s r : List Char) : encode (s ++ r) = encode s ++ encode r :=
  List.flatMap_append

lemma ofString_append (a b : String) : ofString (a ++ b) = ofString a ++ ofString b := by
  rw [ofString, String.toList_append, encode_append]
  rfl

/-- A text of ASCII has one byte for each character. -/
lemma encode_of_ascii {s : List Char} (h : ∀ c ∈ s, c.toNat < 0x80) :
    encode s = s.map fun c => c.toNat.toUInt8 := by
  induction s with
  | nil => rfl
  | cons c r ih =>
    obtain ⟨hc, hr⟩ := List.forall_mem_cons.mp h
    have hchar : encodeChar c = [c.toNat.toUInt8] := if_pos hc
    rw [encode, List.flatMap_cons, hchar, ← encode, ih hr]
    rfl

end Utf8

namespace Http

/-- Whether a value is made of visible ASCII, blanks and tabs only. -/
def IsVisible (v : Bytes) : Prop := ∀ b ∈ v, (0x20 ≤ b ∧ b < 0x7F) ∨ b = 9

/-- The character that a visible byte stands for. -/
abbrev charOf (b : UInt8) : Char := Char.ofNat b.toNat

/-- Different bytes stand for different characters. -/
lemma charOf_injective : Function.Injective charOf := by
  intro a b hab
  have hvalid (x : UInt8) : (charOf x).toNat = x.toNat := by
    have hlt : x.toNat < 0xd800 := x.toNat_lt.trans (by decide)
    rw [charOf, Char.toNat_ofNat, if_pos (.inl hlt)]
  have hnat : a.toNat = b.toNat := by rw [← hvalid a, ← hvalid b, hab]
  exact UInt8.toNat_inj.mp hnat

/-- The values that can be read are those made of visible ASCII, blanks and tabs. -/
lemma visible?_eq_some_iff {v : Bytes} {s : List Char} :
    visible? v = some s ↔ IsVisible v ∧ v.map charOf = s := by
  have hall : v.all isVisibleByte = true ↔ IsVisible v := by
    simp [IsVisible, isVisibleByte, List.all_eq_true]
  unfold visible?
  split
  · next h => simp [hall.mp h]
  · next h => simp [mt hall.mpr h]

/-- A character of visible ASCII, without the blank. -/
def IsMark (c : Char) : Prop := 0x21 ≤ c.toNat ∧ c.toNat < 0x7F

section Marks

variable {s : List Char}

lemma encode_of_marks (h : ∀ c ∈ s, IsMark c) :
    Utf8.encode s = s.map fun c => c.toNat.toUInt8 :=
  Utf8.encode_of_ascii fun c hc => (h c hc).2.trans (by decide)

/-- The byte of a visible character stands for that character. -/
lemma IsMark.charOf_toUInt8 {c : Char} (h : IsMark c) : charOf c.toNat.toUInt8 = c := by
  have hlt : c.toNat < 256 := h.2.trans (by decide)
  have hbyte : c.toNat.toUInt8.toNat = c.toNat := Nat.mod_eq_of_lt hlt
  rw [charOf, hbyte, Char.ofNat_toNat]

/-- A text of visible characters is read back from its bytes. -/
lemma map_charOf_encode (h : ∀ c ∈ s, IsMark c) : (Utf8.encode s).map charOf = s := by
  rw [encode_of_marks h, List.map_map]
  calc s.map (charOf ∘ fun c => c.toNat.toUInt8)
    _ = s.map id := List.map_congr_left fun c hc => (h c hc).charOf_toUInt8
    _ = s := List.map_id s

/-- The bytes of a text of visible characters are visible. -/
lemma isVisible_encode (h : ∀ c ∈ s, IsMark c) : IsVisible (Utf8.encode s) := by
  rw [encode_of_marks h]
  intro b hb
  obtain ⟨c, hc, rfl⟩ := List.mem_map.mp hb
  obtain ⟨hlow, hhigh⟩ := h c hc
  have hbyte : c.toNat.toUInt8.toNat = c.toNat := Nat.mod_eq_of_lt (hhigh.trans (by decide))
  left
  rw [UInt8.le_iff_toNat_le, UInt8.lt_iff_toNat_lt, hbyte]
  exact ⟨Nat.le_of_succ_le hlow, hhigh⟩

/-- Visible bytes are a legal field value. -/
lemma isValue_of_isVisible {v : Bytes} (h : IsVisible v) : isValue v = true := by
  rw [isValue, List.all_eq_true]
  intro b hb
  rcases h b hb with ⟨hlow, hhigh⟩ | rfl
  · have hne : b ≠ 0x7F := (UInt8.lt_iff_toNat_lt.mp hhigh).ne ∘ congrArg UInt8.toNat
    simp [isValueByte, hlow, hne]
  · rfl

end Marks

namespace Fields

/-! ## The values of a name -/

variable {name other : String} {v : Bytes} {fs gs : Fields}

lemma mem_values : v ∈ values name fs ↔ (name, v) ∈ fs := by
  simp [values]

@[simp] lemma values_append : values name (fs ++ gs) = values name fs ++ values name gs := by
  simp [values]

@[simp] lemma values_cons_self : values name ((name, v) :: fs) = v :: values name fs := by
  simp [values]

lemma values_cons_of_ne (h : other ≠ name) : values name ((other, v) :: fs) = values name fs := by
  simp [values, h]

lemma values_eq_nil (h : ∀ f ∈ fs, f.1 ≠ name) : values name fs = [] := by
  rw [values, List.filter_eq_nil_iff.mpr fun f hf => by simpa using h f hf, List.map_nil]

/-- Another name keeps its values when those of one name are replaced. -/
lemma values_replace_of_ne (h : other ≠ name) :
    values name (replace other v fs) = values name fs := by
  have hwithout : values name (without other fs) = values name fs := by
    rw [values, values, without, List.filter_filter]
    congr 1
    refine List.filter_congr fun f _ => ?_
    by_cases hf : f.1 = name
    · simp [hf, Ne.symm h]
    · simp [hf]
  rw [replace, values_append, hwithout, values_cons_of_ne h]
  exact List.append_nil _

/-- A name whose values are replaced has the one that replaces them. -/
lemma values_replace_self : values name (replace name v fs) = [v] := by
  have hwithout : values name (without name fs) = [] := by
    simp [values, without, List.filter_filter]
  rw [replace, values_append, hwithout, values_cons_self]
  rfl

/-- The permission for other origins leaves all fields alone but its own. -/
lemma values_apply (c : Access.CrossOrigin) (horigin : "access-control-allow-origin" ≠ name)
    (hmethods : "access-control-allow-methods" ≠ name) :
    values name (c.apply fs) = values name fs := by
  unfold Access.CrossOrigin.apply
  split
  · rfl
  · rw [values_replace_of_ne hmethods, values_replace_of_ne horigin]

end Fields

end Http

end Gateway
