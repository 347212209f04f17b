import Mathlib
import Gateway.Proofs.Encoder.Totality
import Gateway.Proofs.Text.Cutting

/-!
# Codings that a client accepts

A client lists the codings that it accepts: names separated by commas, in any letter case and with blanks
around them, each perhaps with a weight between zero and one. A coding of weight zero is refused, and an
asterisk stands for the codings that are not listed. A piece between two commas is written for one name only,
and it shows whether its coding is refused (`Http.Coding.IsIn.reading`, `Http.Coding.IsIn.isRefused_iff`).

The encoder knows nothing of weights: it looks for the letters of the compression anywhere in a value
(`Encoder.MentionsGzip`). In a list of codings they can only occur in a name, so that an image is compressed
for the clients that list a name with these letters (`Encoder.plain_iff_of_image`). A client that only lists
the names that there are and refuses none of them is understood, and one that refuses compression by its
weight is sent compressed images (`Encoder.exists_refusal_ignored`).
-/

namespace Gateway

namespace Http

/-! ## The grammar of the field -/

/-- Whether a byte is a blank or a tab. -/
def IsBlank (b : UInt8) : Prop := b = 0x20 ∨ b = 9

instance : DecidablePred IsBlank := fun b => inferInstanceAs (Decidable (b = 0x20 ∨ b = 9))

/-- The weight of a coding as it is written. -/
structure Weight where
  /-- The blanks around the semicolon. -/
  left : Bytes
  right : Bytes
  /-- The letter in front of the equals sign. -/
  letter : UInt8
  /-- The digit in front of the point. -/
  unit : UInt8
  /-- The digits behind the point, if there is one. -/
  decimals : Option Bytes
  blank : ∀ b ∈ left ++ right, IsBlank b
  letter_eq : letter = 0x71 ∨ letter = 0x51
  unit_eq : unit = 0x30 ∨ unit = 0x31
  length_le : ∀ ds ∈ decimals, ds.length ≤ 3
  digits : ∀ ds ∈ decimals, ∀ d ∈ ds, 0x30 ≤ d ∧ d ≤ 0x39
  /-- No weight is larger than one. -/
  le_one : unit = 0x31 → ∀ ds ∈ decimals, ∀ d ∈ ds, d = 0x30

namespace Weight

/-- A weight as it is written. -/
def bytes (w : Weight) : Bytes :=
  w.left ++ [0x3B] ++ w.right ++ [w.letter, 0x3D, w.unit] ++ w.decimals.elim [] (0x2E :: ·)

/-- The digits of a weight. -/
def figures (w : Weight) : Bytes := w.unit :: w.decimals.elim [] id

/-- Whether a weight is zero. -/
def IsZero (w : Weight) : Prop := ∀ d ∈ w.figures, d = 0x30

end Weight

/-- A listed coding. -/
structure Coding where
  name : Bytes
  weight : Option Weight
  name_ne_nil : name ≠ []
  token : ∀ b ∈ name, isTokenChar (charOf b) = true

namespace Coding

/-- A coding as it is written. -/
def bytes (c : Coding) : Bytes := c.name ++ c.weight.elim [] Weight.bytes

/-- Whether a coding has a name, without regard to letter case. -/
def HasName (c : Coding) (name : String) : Prop :=
  c.name.map (fun b => if 0x41 ≤ b ∧ b ≤ 0x5A then b + 0x20 else b) = Utf8.ofString name

/-- Whether a coding is refused. Without a weight it is accepted. -/
def IsRefused (c : Coding) : Prop := ∃ w ∈ c.weight, w.IsZero

/-- Whether a piece of a value is written for a coding. -/
def IsIn (c : Coding) (piece : Bytes) : Prop :=
  ∃ left right, piece = left ++ c.bytes ++ right ∧ ∀ b ∈ left ++ right, IsBlank b

end Coding

/-- The name in a piece of a value. -/
def nameIn (piece : Bytes) : Bytes :=
  (piece.dropWhile fun b => decide (IsBlank b)).takeWhile fun b => isTokenChar (charOf b)

/-- What follows the name in a piece of a value. -/
def restIn (piece : Bytes) : Bytes :=
  (piece.dropWhile fun b => decide (IsBlank b)).dropWhile fun b => isTokenChar (charOf b)

/-- Whether a value is a list of codings, where members may be empty. -/
def IsCodingList (v : Bytes) : Prop :=
  ∀ piece ∈ Text.split 0x2C v, (∀ b ∈ piece, IsBlank b) ∨ ∃ c : Coding, c.IsIn piece

namespace Fields

variable (fs : Fields)

/-- Whether a client lists a coding. -/
def Lists (c : Coding) : Prop :=
  ∃ v ∈ values "accept-encoding" fs, ∃ piece ∈ Text.split 0x2C v, c.IsIn piece

/-- Whether a client refuses compression: it accepts it neither by one of its names nor by an asterisk, or
gives it the weight zero. -/
def RefusesGzip : Prop :=
  (∀ c, Lists fs c → c.HasName "gzip" ∨ c.HasName "x-gzip" ∨ c.HasName "*" → c.IsRefused) ∨
    ∃ c, Lists fs c ∧ c.HasName "gzip" ∧ c.IsRefused

end Fields

/-! ## The pieces of a list -/

section Pieces

variable {b : UInt8} {c : Coding} {piece v : Bytes}

/-- What a weight is written with besides its digits. -/
def weightMarks : Bytes := [0x3B, 0x71, 0x51, 0x3D, 0x2E]

/-- Whether a byte may stand in front of a name or behind it: a blank, or what a weight is written with. -/
def IsPad (b : UInt8) : Prop := IsBlank b ∨ b ∈ weightMarks ∨ (0x30 ≤ b ∧ b ≤ 0x39)

instance : DecidablePred IsPad := fun b =>
  inferInstanceAs (Decidable (IsBlank b ∨ _ ∨ _))

/-- The marks can be read, and they are no digits. -/
lemma weightMarks_spec : ∀ b ∈ weightMarks, (0x20 ≤ b ∧ b < 0x7F) ∧ ¬ (0x31 ≤ b ∧ b ≤ 0x39) := by
  decide +kernel

lemma IsPad.isVisibleByte (h : IsPad b) : (0x20 ≤ b ∧ b < 0x7F) ∨ b = 9 := by
  rcases h with (rfl | rfl) | hmark | ⟨hlow, hhigh⟩
  · decide
  · decide
  · exact .inl (weightMarks_spec b hmark).1
  · have hfirst : (0x20 : UInt8) ≤ 0x30 := by decide
    have hlast : (0x39 : UInt8) < 0x7F := by decide
    exact .inl ⟨UInt8.le_trans hfirst hlow, UInt8.lt_of_le_of_lt hhigh hlast⟩

/-- What is written of a part that may be missing. -/
lemma mem_elim_nil {α : Type} {o : Option α} {write : α → Bytes} :
    b ∈ o.elim [] write ↔ ∃ a ∈ o, b ∈ write a := by
  cases o <;> simp

/-- What a weight is written with. -/
lemma Weight.mem_bytes {w : Weight} (hb : b ∈ w.bytes) :
    IsBlank b ∨ b ∈ weightMarks ∨ b ∈ w.figures := by
  simp only [bytes, List.mem_append, List.mem_cons, List.not_mem_nil, or_false] at hb
  rcases hb with (((hb | rfl) | hb) | rfl | rfl | rfl) | hb
  · exact .inl (w.blank b (List.mem_append_left _ hb))
  · exact .inr (.inl (by decide))
  · exact .inl (w.blank b (List.mem_append_right _ hb))
  · rcases w.letter_eq with hletter | hletter <;> rw [hletter] <;> exact .inr (.inl (by decide))
  · exact .inr (.inl (by decide))
  · exact .inr (.inr List.mem_cons_self)
  · obtain ⟨ds, hds, hb⟩ := mem_elim_nil.mp hb
    rcases List.mem_cons.mp hb with rfl | hb
    · exact .inr (.inl (by decide))
    · exact .inr (.inr (List.mem_cons_of_mem _ (mem_elim_nil.mpr ⟨ds, hds, hb⟩)))

lemma Weight.figures_subset (w : Weight) : w.figures ⊆ w.bytes := by
  intro b hb
  rcases List.mem_cons.mp hb with rfl | hb
  · simp [bytes]
  · obtain ⟨ds, hds, hb⟩ := mem_elim_nil.mp hb
    exact List.mem_append_right _ (mem_elim_nil.mpr ⟨ds, hds, List.mem_cons_of_mem _ hb⟩)

lemma Weight.digit_of_mem_figures {w : Weight} (hb : b ∈ w.figures) : 0x30 ≤ b ∧ b ≤ 0x39 := by
  rcases List.mem_cons.mp hb with rfl | hb
  · rcases w.unit_eq with hunit | hunit <;> rw [hunit] <;> decide
  · obtain ⟨ds, hds, hb⟩ := mem_elim_nil.mp hb
    exact w.digits ds hds b hb

lemma Weight.isPad_of_mem_bytes {w : Weight} (hb : b ∈ w.bytes) : IsPad b :=
  w.mem_bytes hb |>.imp_right <| .imp_right w.digit_of_mem_figures

/-- A piece for a coding is its name between bytes of another kind. -/
lemma Coding.IsIn.exists_pad (h : c.IsIn piece) :
    ∃ front back, piece = front ++ c.name ++ back ∧ ∀ b ∈ front ++ back, IsPad b := by
  obtain ⟨left, right, rfl, hblank⟩ := h
  obtain ⟨hleft, hright⟩ := List.forall_mem_append.mp hblank
  refine ⟨left, c.weight.elim [] Weight.bytes ++ right, by simp [Coding.bytes], ?_⟩
  simp only [List.forall_mem_append]
  refine ⟨fun b hb => .inl (hleft b hb), ?_, fun b hb => .inl (hright b hb)⟩
  intro b hb
  obtain ⟨w, -, hb⟩ := mem_elim_nil.mp hb
  exact w.isPad_of_mem_bytes hb

/-- What follows the name of a coding does not belong to the name. -/
lemma Coding.isTokenChar_head (c : Coding) {right : Bytes} (hright : ∀ b ∈ right, IsBlank b) :
    ∀ b ∈ (c.weight.elim [] Weight.bytes ++ right).head?, isTokenChar (charOf b) = false := by
  have hother {b : UInt8} (hb : IsBlank b ∨ b = 0x3B) : isTokenChar (charOf b) = false := by
    rcases hb with (rfl | rfl) | rfl <;> decide
  intro b hb
  rcases hweight : c.weight with _ | w
  · rw [hweight] at hb
    exact hother (.inl (hright b (List.mem_of_head? hb)))
  · rw [hweight] at hb
    simp only [Option.elim_some, Weight.bytes, List.append_assoc] at hb
    rcases hleft : w.left with _ | ⟨d, left⟩
    · rw [hleft] at hb
      exact hother (.inr (Option.some.inj hb).symm)
    · rw [hleft] at hb
      have hblank := w.blank d (by simp [hleft])
      exact hother (.inl (Option.some.inj hb ▸ hblank))

/-- The name in a piece for a coding is the name of the coding, and behind it is the weight. -/
lemma Coding.IsIn.reading (h : c.IsIn piece) : nameIn piece = c.name ∧
    ∃ right, restIn piece = c.weight.elim [] Weight.bytes ++ right ∧ ∀ b ∈ right, IsBlank b := by
  obtain ⟨left, right, rfl, hblank⟩ := h
  obtain ⟨hleft, hright⟩ := List.forall_mem_append.mp hblank
  set rest := c.weight.elim [] Weight.bytes ++ right with hrest
  have hstart : (left ++ c.bytes ++ right).dropWhile (fun b => decide (IsBlank b)) =
      c.name ++ rest := by
    have hname : decide (IsBlank (c.name.head c.name_ne_nil)) = false := by
      apply decide_eq_false
      rintro (hb | hb)
      all_goals
        have htoken := c.token _ (List.head_mem c.name_ne_nil)
        rw [hb] at htoken
        exact absurd htoken (by decide)
    have hcut : left ++ c.bytes ++ right = left ++ (c.name ++ rest) := by
      simp [Coding.bytes, hrest]
    rw [hcut, Text.dropWhile_pad (by simpa using hleft) c.name_ne_nil hname]
  have hnone : rest.takeWhile (fun b => isTokenChar (charOf b)) = [] ∧
      rest.dropWhile (fun b => isTokenChar (charOf b)) = rest := by
    have hhead := c.isTokenChar_head hright
    rw [← hrest] at hhead
    rcases rest with _ | ⟨b, rest⟩
    · exact ⟨rfl, rfl⟩
    · have hb : ¬ isTokenChar (charOf b) = true := by simp [hhead b rfl]
      exact ⟨List.takeWhile_cons_of_neg hb, List.dropWhile_cons_of_neg hb⟩
  refine ⟨?_, right, ?_, hright⟩
  · rw [nameIn, hstart, List.takeWhile_append_of_pos c.token, hnone.1, List.append_nil]
  · rw [restIn, hstart, List.dropWhile_append_of_pos c.token, hnone.2]

/-- A coding is refused if what follows its name has a semicolon, and no digit but zeros. -/
lemma Coding.IsIn.isRefused_iff (h : c.IsIn piece) : c.IsRefused ↔
    0x3B ∈ restIn piece ∧ ∀ b ∈ restIn piece, ¬ (0x31 ≤ b ∧ b ≤ 0x39) := by
  obtain ⟨-, right, hrest, hright⟩ := h.reading
  have hblank {b : UInt8} (hb : IsBlank b) : b ≠ 0x3B ∧ ¬ (0x31 ≤ b ∧ b ≤ 0x39) := by
    rcases hb with rfl | rfl <;> decide
  rw [hrest]
  rcases hweight : c.weight with _ | w
  · have hnone : ¬ c.IsRefused := by
      rintro ⟨w, hw, -⟩
      rw [hweight] at hw
      cases hw
    exact iff_of_false hnone fun hboth => (hblank (hright _ hboth.1)).1 rfl
  have hzero : c.IsRefused ↔ w.IsZero := by
    simp [IsRefused, hweight]
  rw [hzero, Option.elim_some]
  constructor
  · intro hall
    refine ⟨List.mem_append_left _ (by simp [Weight.bytes]), fun b hb => ?_⟩
    rcases List.mem_append.mp hb with hb | hb
    · rcases w.mem_bytes hb with hb | hb | hb
      · exact (hblank hb).2
      · exact (weightMarks_spec b hb).2
      · rw [hall b hb]
        decide
    · exact (hblank (hright b hb)).2
  · rintro ⟨-, hall⟩ d hd
    obtain ⟨hlow, hhigh⟩ := w.digit_of_mem_figures hd
    have hnot : ¬ 0x31 ≤ d := fun hle =>
      hall d (List.mem_append_left _ (w.figures_subset hd)) ⟨hle, hhigh⟩
    rw [UInt8.le_iff_toNat_le] at hlow hnot
    refine UInt8.toNat_inj.mp ?_
    change ¬ 0x31 ≤ d.toNat at hnot
    change 0x30 ≤ d.toNat at hlow
    change d.toNat = 0x30
    omega

lemma not_isPad_of_mem_gzip : ∀ b ∈ Utf8.ofString "gzip", ¬ IsPad b := by
  decide +kernel

/-- The letters of the compression are in the name of a coding if they are in a piece for it. -/
lemma Coding.IsIn.gzip_infix_iff (h : c.IsIn piece) :
    Utf8.ofString "gzip" <:+: piece ↔ Utf8.ofString "gzip" <:+: c.name := by
  obtain ⟨front, back, rfl, hpad⟩ := h.exists_pad
  obtain ⟨hfront, hback⟩ := List.forall_mem_append.mp hpad
  have hother {b : UInt8} (hb : IsPad b) : b ∉ Utf8.ofString "gzip" := fun hmem =>
    not_isPad_of_mem_gzip b hmem hb
  exact Text.infix_padded_iff (by decide +kernel) (fun b hb => hother (hfront b hb))
    fun b hb => hother (hback b hb)

lemma isVisibleByte_of_isTokenChar : ∀ n < 256, isTokenChar (charOf n.toUInt8) = true →
    0x20 ≤ n.toUInt8 ∧ n.toUInt8 < 0x7F := by
  decide +kernel

/-- A list of codings can be read. -/
lemma IsCodingList.isVisible (h : IsCodingList v) : IsVisible v := by
  intro b hb
  by_cases hcomma : b = 0x2C
  · rw [hcomma]
    decide
  -- any other byte is in a piece
  have hpart : [b] <:+: v := by
    obtain ⟨front, back, rfl⟩ := List.append_of_mem hb
    exact ⟨front, back, by simp⟩
  have hother : 0x2C ∉ [b] := by simpa using Ne.symm hcomma
  obtain ⟨piece, hpiece, hpart⟩ := (Text.infix_iff_exists_mem_split hother).mp hpart
  have hmem : b ∈ piece := hpart.subset (List.mem_singleton_self b)
  rcases h piece hpiece with hblank | ⟨c, hin⟩
  · exact IsPad.isVisibleByte (.inl (hblank b hmem))
  obtain ⟨front, back, rfl, hpad⟩ := hin.exists_pad
  rw [List.append_assoc, List.mem_append, List.mem_append] at hmem
  rcases hmem with hmem | hmem | hmem
  · exact (hpad b (List.mem_append_left _ hmem)).isVisibleByte
  · have htoken := isVisibleByte_of_isTokenChar b.toNat b.toNat_lt
    rw [Nat.toUInt8, UInt8.ofNat_toNat] at htoken
    exact .inl (htoken (c.token b hmem))
  · exact (hpad b (List.mem_append_right _ hmem)).isVisibleByte

end Pieces

end Http

namespace Encoder

open Http.Fields (Lists RefusesGzip)

variable {e : Encoder} {pool : BufferPool} {now : Nat} {request : Http.Fields}
  {t : Image.Transform} {source : String} {tag : Option (List Char)} {data : Bytes}
  {gzip : Nat → Bytes → Bytes} {r : Http.Response}

/-- A client with a list of codings mentions the compression if a listed name has its letters. -/
lemma mentionsGzip_iff_of_isCodingList
    (hlists : ∀ v ∈ Http.Fields.values "accept-encoding" request, Http.IsCodingList v) :
    MentionsGzip request ↔ ∃ c, Lists request c ∧ Utf8.ofString "gzip" <:+: c.name := by
  have hcomma : 0x2C ∉ Utf8.ofString "gzip" := by decide +kernel
  constructor
  · rintro ⟨v, hv, -, hpart⟩
    obtain ⟨piece, hpiece, hpart⟩ := (Text.infix_iff_exists_mem_split hcomma).mp hpart
    rcases hlists v hv piece hpiece with hblank | ⟨c, hin⟩
    · have hletter : (0x67 : UInt8) ∈ Utf8.ofString "gzip" := by decide +kernel
      exact absurd (.inl (hblank _ (hpart.subset hletter))) (Http.not_isPad_of_mem_gzip _ hletter)
    · exact ⟨c, ⟨v, hv, piece, hpiece, hin⟩, hin.gzip_infix_iff.mp hpart⟩
  · rintro ⟨c, ⟨v, hv, piece, hpiece, hin⟩, hinfix⟩
    refine ⟨v, hv, (hlists v hv).isVisible, ?_⟩
    exact (Text.infix_iff_exists_mem_split hcomma).mpr
      ⟨piece, hpiece, hin.gzip_infix_iff.mpr hinfix⟩

/-- Whether a response carries an image as it is. -/
def IsPlain (data : Bytes) (r : Http.Response) : Prop :=
  Http.Fields.values "content-encoding" r.fields = [] ∧ r.body = data

/-- An image is sent as it is if compression is off, or to a client that does not mention it. For a client
with a list of codings that is one that lists no name with the letters of the compression, whatever the
weights are. So a refusal is honoured if no coding is refused by its weight and the letters only occur in
the names of the compression. -/
theorem plain_iff_of_image (h : (e.image pool now request t source tag data gzip).1 = .ok r) :
    (IsPlain data r ↔ (0 < e.gzipLevel → ¬ MentionsGzip request)) ∧
    ((∀ v ∈ Http.Fields.values "accept-encoding" request, Http.IsCodingList v) →
      (IsPlain data r ↔
        (0 < e.gzipLevel → ∀ c, Lists request c → ¬ Utf8.ofString "gzip" <:+: c.name)) ∧
      ((∀ c, Lists request c → ¬ c.IsRefused ∧
          (Utf8.ofString "gzip" <:+: c.name → c.HasName "gzip" ∨ c.HasName "x-gzip")) →
        RefusesGzip request → IsPlain data r)) := by
  obtain ⟨hcompressed, hplain⟩ := sent_of_image h
  have hall : IsPlain data r ↔ (0 < e.gzipLevel → ¬ MentionsGzip request) := by
    constructor
    · rintro ⟨htold, -⟩ hlevel hmentions
      obtain ⟨hgzip, -⟩ := hcompressed ⟨hlevel, hmentions⟩
      exact List.cons_ne_nil _ _ (hgzip.symm.trans htold)
    · exact fun hnot => hplain fun hboth => hnot hboth.1 hboth.2
  refine ⟨hall, fun hlists => ⟨?_, ?_⟩⟩
  · simp only [hall, mentionsGzip_iff_of_isCodingList hlists, not_exists, not_and]
  · intro hnames hrefuses
    rw [hall, mentionsGzip_iff_of_isCodingList hlists]
    rintro - ⟨c, hc, hinfix⟩
    obtain ⟨haccepted, hname⟩ := hnames c hc
    rcases hrefuses with hnone | ⟨d, hd, -, hzero⟩
    · exact haccepted (hnone c hc ((hname hinfix).imp_right .inl))
    · exact (hnames d hd).1 hzero

/-- An image without a validator is encoded at the start of the calendar. -/
lemma exists_image (e : Encoder) (request : Http.Fields) (source : String) (data : Bytes)
    (httl : e.ttlSecs ≤ Http.Date.last) :
    ∃ r, (e.image freshPool 0 request .standard source none data Gzip.compress).1 = .ok r := by
  have hexpiry : 0 + e.ttlSecs ≤ Http.Date.last := (Nat.zero_add _).trans_le httl
  have hnone : ∀ s ∈ (none : Option (List Char)), Writable s := by simp
  obtain ⟨r, himage, -⟩ := complete_of_expires hexpiry hnone
  exact ⟨r, himage⟩

/-- A coding with a weight of a half, and one without a weight. -/
def deflateHalf : Http.Coding where
  name := Utf8.ofString "deflate"
  weight := some ⟨[], [], 0x71, 0x30, some [0x35], by simp, .inl rfl, .inl rfl, by simp, by simp, by simp⟩
  name_ne_nil := by decide +kernel
  token := by decide +kernel

def brotli : Http.Coding where
  name := Utf8.ofString "br"
  weight := none
  name_ne_nil := by decide +kernel
  token := by decide +kernel

/-- A client that accepts these two. -/
def twoCodings : Http.Fields := [("accept-encoding", Utf8.ofString "deflate;q=0.5, br")]

/-- A client with other codings is sent the image as it is. -/
theorem plain_iff_of_twoCodings :
    let e : Encoder := ⟨3600, 6⟩
    ∃ r, (e.image freshPool 0 twoCodings .standard "http://x/a.png" none [1, 2] Gzip.compress).1 =
        .ok r ∧
      (∀ v ∈ Http.Fields.values "accept-encoding" twoCodings, Http.IsCodingList v) ∧
      (∀ c, Lists twoCodings c → ¬ c.IsRefused ∧
        (Utf8.ofString "gzip" <:+: c.name → c.HasName "gzip" ∨ c.HasName "x-gzip")) ∧
      RefusesGzip twoCodings ∧ IsPlain [1, 2] r := by
  intro e
  have hvalues : Http.Fields.values "accept-encoding" twoCodings =
      [Utf8.ofString "deflate;q=0.5, br"] := by decide +kernel
  have hpieces : Text.split 0x2C (Utf8.ofString "deflate;q=0.5, br") =
      [deflateHalf.bytes, 0x20 :: brotli.bytes] := by decide +kernel
  have hcodings : ∀ v ∈ Http.Fields.values "accept-encoding" twoCodings, Http.IsCodingList v := by
    intro v hv piece hpiece
    rw [hvalues, List.mem_singleton] at hv
    rw [hv, hpieces, List.mem_pair] at hpiece
    rcases hpiece with rfl | rfl
    · exact .inr ⟨deflateHalf, [], [], by simp, by simp⟩
    · exact .inr ⟨brotli, [0x20], [], by simp, by simp [Http.IsBlank]⟩
  -- each piece has one reading
  have hread {c : Http.Coding} (hc : Lists twoCodings c) : ¬ c.IsRefused ∧
      ¬ Utf8.ofString "gzip" <:+: c.name ∧
      ¬ (c.HasName "gzip" ∨ c.HasName "x-gzip" ∨ c.HasName "*") := by
    obtain ⟨v, hv, piece, hpiece, hin⟩ := hc
    rw [hvalues, List.mem_singleton] at hv
    rw [hv, hpieces, List.mem_pair] at hpiece
    unfold Http.Coding.HasName
    rw [hin.isRefused_iff, ← hin.reading.1]
    rcases hpiece with rfl | rfl
    · decide +kernel
    · decide +kernel
  have hrefuses : RefusesGzip twoCodings := .inl fun c hc hname => absurd hname (hread hc).2.2
  obtain ⟨r, himage⟩ := exists_image e twoCodings "http://x/a.png" [1, 2] (by decide)
  have hnames : ∀ c, Lists twoCodings c → ¬ c.IsRefused ∧
      (Utf8.ofString "gzip" <:+: c.name → c.HasName "gzip" ∨ c.HasName "x-gzip") :=
    fun c hc => ⟨(hread hc).1, fun hinfix => absurd hinfix (hread hc).2.1⟩
  exact ⟨r, himage, hcodings, hnames, hrefuses,
    ((plain_iff_of_image himage).2 hcodings).2 hnames hrefuses⟩

/-! ## Where a refusal is ignored -/

/-- A coding with the weight zero. -/
def gzipZero : Http.Coding where
  name := Utf8.ofString "gzip"
  weight := some ⟨[], [], 0x71, 0x30, none, by simp, .inl rfl, .inl rfl, by simp, by simp, by simp⟩
  name_ne_nil := by decide +kernel
  token := by decide +kernel

/-- A client that lists nothing else. -/
def zeroWeight : Http.Fields := [("accept-encoding", Utf8.ofString "gzip;q=0")]

/-- There is a client that refuses compression and is sent a compressed image. -/
theorem exists_refusal_ignored :
    let e : Encoder := ⟨3600, 6⟩
    ∃ r, (e.image freshPool 0 zeroWeight .standard "http://x/a.png" none (Utf8.ofString "raw")
        Gzip.compress).1 = .ok r ∧
      RefusesGzip zeroWeight ∧
      Http.Fields.values "content-encoding" r.fields = [Utf8.ofString "gzip"] ∧
      r.body ≠ Utf8.ofString "raw" := by
  intro e
  have hvalue : Utf8.ofString "gzip;q=0" ∈ Http.Fields.values "accept-encoding" zeroWeight :=
    List.mem_singleton_self _
  have hpiece : gzipZero.bytes ∈ Text.split 0x2C (Utf8.ofString "gzip;q=0") := by decide +kernel
  have hlists : Lists zeroWeight gzipZero := ⟨_, hvalue, _, hpiece, [], [], by simp, by simp⟩
  have hname : gzipZero.HasName "gzip" := by
    unfold Http.Coding.HasName
    decide +kernel
  have hzero : gzipZero.IsRefused := ⟨_, rfl, by simp [Http.Weight.IsZero, Http.Weight.figures]⟩
  have hmentions : MentionsGzip zeroWeight := by
    refine ⟨_, hvalue, ?_, by decide +kernel⟩
    unfold Http.IsVisible
    decide +kernel
  obtain ⟨r, himage⟩ := exists_image e zeroWeight "http://x/a.png" (Utf8.ofString "raw") (by decide)
  obtain ⟨htold, hbody⟩ := (sent_of_image himage).1 ⟨Nat.succ_pos 5, hmentions⟩
  have hother : Gzip.compress e.gzipLevel (Utf8.ofString "raw") ≠ Utf8.ofString "raw" := by
    decide +kernel
  exact ⟨r, himage, .inr ⟨gzipZero, hlists, hname, hzero⟩, htold, hbody ▸ hother⟩

end Encoder

end Gateway
