import Mathlib
import Gateway.Disposition
import Gateway.Proofs.Http.Value
import Gateway.Proofs.Text.Cutting
import Gateway.Proofs.Url.Percent

/-!
# Download names that stay between their quotes

The name that a response suggests comes from outside: it is a part of the source's address, with the
escapes undone. It is written as a quoted string, and whatever the address is and however addresses are
read, the quoted string is well-formed, stands for the name and ends where the value ends
(`Disposition.contained_value`).

A quoted string is read in one way only (`Disposition.QuotedText.unambiguous`), so that no part of a name can
be taken for something behind it. The writer escapes quotes and backslashes and leaves out controls, byte for
byte what the grammar asks for (`Disposition.quotedText_encode`): a character beyond ASCII has bytes beyond
ASCII only.
-/

namespace Gateway

namespace Utf8

/-! ## The bytes of a character -/

/-- The only byte of a character of ASCII is its number, and other characters have bytes beyond ASCII
only. -/
lemma toNat_of_mem_encodeChar {c : Char} {b : UInt8} (hb : b ∈ encodeChar c) :
    (c.toNat < 0x80 ∧ b.toNat = c.toNat) ∨ 0x80 ≤ c.toNat ∧ 0x80 ≤ b.toNat := by
  have hmax : c.toNat < 0x110000 := by
    rcases c.valid with h | h
    · exact h.trans (by decide)
    · exact h.2
  have hbyte {n : ℕ} (hlow : 0x80 ≤ n) (hhigh : n < 0x100) : 0x80 ≤ n.toUInt8.toNat := by
    have htoNat : n.toUInt8.toNat = n := Nat.mod_eq_of_lt hhigh
    omega
  simp only [encodeChar] at hb
  split at hb
  · next h =>
    obtain rfl := List.mem_singleton.mp hb
    exact .inl ⟨h, Nat.mod_eq_of_lt (h.trans (by decide))⟩
  · next h =>
    refine .inr ⟨Nat.le_of_not_lt h, ?_⟩
    -- two, three or four bytes
    split at hb
    · simp only [List.mem_cons, List.not_mem_nil, or_false] at hb
      rcases hb with rfl | rfl <;> exact hbyte (by omega) (by omega)
    split at hb
    · simp only [List.mem_cons, List.not_mem_nil, or_false] at hb
      rcases hb with rfl | rfl | rfl <;> exact hbyte (by omega) (by omega)
    · simp only [List.mem_cons, List.not_mem_nil, or_false] at hb
      rcases hb with rfl | rfl | rfl | rfl <;> exact hbyte (by omega) (by omega)

end Utf8

namespace Disposition

/-! ## Quoted strings -/

/-- Whether bytes between two quotes are well-formed, and the bytes they stand for: a byte that may occur
in a field value stands for itself, if it is not a quote or a backslash, and every one does after a
backslash. -/
inductive QuotedText : Bytes → Bytes → Prop where
  | nil : QuotedText [] []
  | plain {b : UInt8} {inside text : Bytes} (hvalue : Http.isValueByte b = true) (hquote : b ≠ 0x22)
      (hslash : b ≠ 0x5C) (h : QuotedText inside text) : QuotedText (b :: inside) (b :: text)
  | escaped {b : UInt8} {inside text : Bytes} (hvalue : Http.isValueByte b = true)
      (h : QuotedText inside text) : QuotedText (0x5C :: b :: inside) (b :: text)

namespace QuotedText

variable {inside inside' text text' rest rest' : Bytes}

lemma append (h : QuotedText inside text) (h' : QuotedText inside' text') :
    QuotedText (inside ++ inside') (text ++ text') := by
  induction h with
  | nil => exact h'
  | plain hvalue hquote hslash _ ih => exact .plain hvalue hquote hslash ih
  | escaped hvalue _ ih => exact .escaped hvalue ih

/-- Whatever follows, there is one quote only that can end a quoted string, and it has one meaning. -/
lemma unambiguous (h : QuotedText inside text) (h' : QuotedText inside' text')
    (heq : inside ++ 0x22 :: rest = inside' ++ 0x22 :: rest') :
    inside = inside' ∧ text = text' ∧ rest = rest' := by
  induction h generalizing inside' text' with
  | nil =>
    rcases h' with _ | ⟨-, hquote, -, -⟩ | _
    · exact ⟨rfl, rfl, (List.cons.inj heq).2⟩
    · exact absurd (List.cons.inj heq).1.symm hquote
    · exact absurd (List.cons.inj heq).1 (by decide)
  | plain hvalue hquote hslash h ih =>
    rcases h' with _ | ⟨-, -, -, h'⟩ | _
    · exact absurd (List.cons.inj heq).1 hquote
    · obtain ⟨rfl, htail⟩ := List.cons.inj heq
      obtain ⟨rfl, rfl, rfl⟩ := ih h' htail
      exact ⟨rfl, rfl, rfl⟩
    · exact absurd (List.cons.inj heq).1 hslash
  | escaped hvalue h ih =>
    rcases h' with _ | ⟨-, -, hslash, -⟩ | ⟨-, h'⟩
    · exact absurd (List.cons.inj heq).1 (by decide)
    · exact absurd (List.cons.inj heq).1.symm hslash
    · obtain ⟨rfl, htail⟩ := List.cons.inj (List.cons.inj heq).2
      obtain ⟨rfl, rfl, rfl⟩ := ih h' htail
      exact ⟨rfl, rfl, rfl⟩

end QuotedText

/-! ## What is written -/

/-- A name without its controls. -/
def printable (s : List Char) : List Char := s.filter fun c => !isControl c

section Writing

variable {s : List Char} {c : Char} {b : UInt8}

/-- The bytes of a character that is not a control may occur in a field value, and a quote or a backslash
is among them only if the character is one. -/
lemma isValueByte_of_mem_encodeChar (hc : isControl c = false) (hb : b ∈ Utf8.encodeChar c) :
    Http.isValueByte b = true ∧ (c ≠ '"' → b ≠ 0x22) ∧ (c ≠ '\\' → b ≠ 0x5C) := by
  have hcontrol : 0x20 ≤ c.toNat ∧ (0x7F ≤ c.toNat → 0x9F < c.toNat) := by
    simpa [isControl] using hc
  have hbyte : b.toNat = c.toNat ∨ 0x80 ≤ c.toNat ∧ 0x80 ≤ b.toNat :=
    (Utf8.toNat_of_mem_encodeChar hb).imp_left And.right
  have hchar {d : Char} (hd : c ≠ d) : c.toNat ≠ d.toNat := fun h => hd (Char.toNat_inj.mp h)
  refine ⟨?_, fun hquote => ?_, fun hslash => ?_⟩
  · simp only [Http.isValueByte, Bool.or_eq_true, Bool.and_eq_true, decide_eq_true_eq, bne_iff_ne,
      ne_eq, UInt8.le_iff_toNat_le, ← UInt8.toNat_inj]
    left
    change 0x20 ≤ b.toNat ∧ ¬ b.toNat = 0x7F
    omega
  · have hne : c.toNat ≠ 0x22 := hchar hquote
    rw [ne_eq, ← UInt8.toNat_inj]
    change b.toNat ≠ 0x22
    omega
  · have hne : c.toNat ≠ 0x5C := hchar hslash
    rw [ne_eq, ← UInt8.toNat_inj]
    change b.toNat ≠ 0x5C
    omega

/-- A character that is neither a control nor a quote nor a backslash stands for itself. -/
lemma quotedText_encodeChar (hc : isControl c = false) (hquote : c ≠ '"') (hslash : c ≠ '\\') :
    QuotedText (Utf8.encodeChar c) (Utf8.encodeChar c) := by
  have hplain : ∀ w : Bytes, (∀ b ∈ w, Http.isValueByte b = true ∧ b ≠ 0x22 ∧ b ≠ 0x5C) →
      QuotedText w w := by
    intro w hw
    induction w with
    | nil => exact .nil
    | cons b w ih =>
      obtain ⟨⟨hvalue, hquote, hslash⟩, hw⟩ := List.forall_mem_cons.mp hw
      exact .plain hvalue hquote hslash (ih hw)
  apply hplain
  intro b hb
  obtain ⟨hvalue, hnoQuote, hnoSlash⟩ := isValueByte_of_mem_encodeChar hc hb
  exact ⟨hvalue, hnoQuote hquote, hnoSlash hslash⟩

/-- One character is written as a quoted text that stands for it, or for nothing if it is a control. -/
lemma quotedText_singleton (c : Char) :
    QuotedText (Utf8.encode (quotedName [c])) (Utf8.encode (printable [c])) := by
  have hname : quotedName [c] = if c = '"' ∨ c = '\\' then ['\\', c]
      else if isControl c then [] else [c] := List.append_nil _
  have hencode : Utf8.encode [c] = Utf8.encodeChar c := List.append_nil _
  rw [hname]
  by_cases hmark : c = '"' ∨ c = '\\'
  · rw [if_pos hmark]
    rcases hmark with rfl | rfl
    · exact .escaped (by decide) .nil
    · exact .escaped (by decide) .nil
  · obtain ⟨hquote, hslash⟩ := not_or.mp hmark
    rw [if_neg hmark]
    rcases hc : isControl c with _ | _
    · simpa [printable, hc, hencode] using quotedText_encodeChar hc hquote hslash
    · simpa [printable, hc, Utf8.encode] using QuotedText.nil

lemma quotedName_append (s r : List Char) : quotedName (s ++ r) = quotedName s ++ quotedName r :=
  List.flatMap_append

/-- A name is written as a quoted text that stands for it, controls apart. -/
lemma quotedText_encode (s : List Char) :
    QuotedText (Utf8.encode (quotedName s)) (Utf8.encode (printable s)) := by
  induction s with
  | nil => exact .nil
  | cons c s ih =>
    have hprintable : printable (c :: s) = printable [c] ++ printable s := List.filter_append [c] s
    rw [← List.singleton_append, quotedName_append, List.singleton_append, hprintable,
      Utf8.encode_append, Utf8.encode_append]
    exact (quotedText_singleton c).append ih

/-- No control is written. -/
lemma isControl_of_mem_quotedName (h : c ∈ quotedName s) : isControl c = false := by
  obtain ⟨d, -, hd⟩ := List.mem_flatMap.mp h
  split at hd
  · next hmark =>
    rcases List.mem_pair.mp hd with rfl | rfl
    · rfl
    · rcases hmark with rfl | rfl <;> rfl
  split at hd
  · exact absurd hd List.not_mem_nil
  · next hcontrol =>
    obtain rfl := List.mem_singleton.mp hd
    exact Bool.eq_false_iff.mpr hcontrol

/-- A text without controls is a legal field value. -/
lemma isValue_encode (h : ∀ c ∈ s, isControl c = false) : Http.isValue (Utf8.encode s) = true := by
  rw [Http.isValue, List.all_eq_true]
  intro b hb
  obtain ⟨c, hc, hmem⟩ := List.mem_flatMap.mp hb
  exact (isValueByte_of_mem_encodeChar (h c hc) hmem).1

end Writing

/-! ## The name of a source -/

/-- What is in front of the last dot of a text, or all of it if there is no dot. -/
inductive BeforeLastDot : List Char → List Char → Prop where
  | dot {before after : List Char} (h : '.' ∉ after) : BeforeLastDot (before ++ '.' :: after) before
  | noDot {s : List Char} (h : '.' ∉ s) : BeforeLastDot s s

/-- Whether a segment has a certain stem: what is in front of its last dot when its escapes are undone. -/
def HasStem (segment stem : List Char) : Prop :=
  ∃ bytes, Url.Unescapes (Utf8.encode segment) bytes ∧ BeforeLastDot (Utf8.decodeLossy bytes) stem

/-- The name that a source suggests to a reader of references: the stem of the last segment of its path,
without controls; or a fixed name, if the source cannot be read, has no segments or ends with an empty
one. -/
inductive Suggests (urls : Url.Reader) (source : String) : List Char → Prop where
  | segment {url : Url} {front : List (List Char)} {last stem : List Char}
      (hread : urls.parse source.toList = .ok url) (hsegments : url.segments? = some (front ++ [last]))
      (hsome : last ≠ []) (hstem : HasStem last stem) : Suggests urls source (printable stem)
  | unread {refusal : Url.Refusal} (hread : urls.parse source.toList = .error refusal) :
      Suggests urls source fallbackName
  | noSegments {url : Url} (hread : urls.parse source.toList = .ok url)
      (hsegments : url.segments? = none) : Suggests urls source fallbackName
  | emptySegment {url : Url} {front : List (List Char)} (hread : urls.parse source.toList = .ok url)
      (hsegments : url.segments? = some (front ++ [[]])) : Suggests urls source fallbackName

/-- The last dot is in one place only. -/
lemma BeforeLastDot.unique {s r r' : List Char} (h : BeforeLastDot s r) (h' : BeforeLastDot s r') :
    r = r' := by
  generalize hs : s = t at h'
  rcases h with hafter | hnone
  · rcases h' with hafter' | hnone'
    · exact (Text.append_cons_inj_of_last hafter hafter' hs).1
    · exact absurd (hs ▸ by simp) hnone'
  · rcases h' with hafter' | -
    · exact absurd (hs ▸ by simp) hnone
    · exact hs

/-- The stem of a text is what is in front of its last dot. -/
lemma beforeLastDot_stem (s : List Char) : BeforeLastDot s (stem s) := by
  unfold stem
  rcases h : Text.cutLast '.' s with _ | ⟨before, after⟩
  · exact .noDot (Text.cutLast_eq_none_iff.mp h)
  · obtain ⟨rfl, hafter⟩ := Text.cutLast_eq_some_iff.mp h
    exact .dot hafter

/-- The stem of a segment is the one that is taken from it. -/
lemma hasStem_iff {segment r : List Char} : HasStem segment r ↔ r = stem (unescaped segment) := by
  simp only [HasStem, Url.unescapes_iff, exists_eq_left]
  constructor
  · exact fun h => h.unique (beforeLastDot_stem _)
  · rintro rfl
    exact beforeLastDot_stem _

/-- The name of a source as it is before it is written. -/
def plainName (urls : Url.Reader) (source : String) : List Char :=
  match segment? source urls with
  | some s => stem (unescaped s)
  | none => fallbackName

section Names

variable {urls : Url.Reader} {source : String} {r : List Char}

lemma name_eq (urls : Url.Reader) (source : String) :
    name source urls = quotedName (plainName urls source) := by
  have hfallback : fallbackName = quotedName fallbackName := by decide
  unfold name plainName
  rcases segment? source urls with _ | s
  · exact hfallback
  · rfl

lemma segment?_of_error {refusal : Url.Refusal} (hread : urls.parse source.toList = .error refusal) :
    segment? source urls = none := by
  unfold segment?
  rw [hread]

lemma segment?_of_ok {url : Url} (hread : urls.parse source.toList = .ok url) :
    segment? source urls = url.lastSegment?.filter fun s => !s.isEmpty := by
  unfold segment?
  rw [hread]

/-- The segments of a path have a last one. -/
lemma exists_last {url : Url} {segs : List (List Char)} (h : url.segments? = some segs) :
    ∃ front last, segs = front ++ [last] := by
  have hsome : segs ≠ [] := by
    unfold Url.segments? at h
    split at h
    · rw [← Option.some.inj h]
      exact List.cons_ne_nil _ _
    · exact absurd h (Option.some_ne_none _).symm
  exact ⟨segs.dropLast, segs.getLast hsome, (List.dropLast_append_getLast hsome).symm⟩

lemma lastSegment?_of_concat {url : Url} {front : List (List Char)} {last : List Char}
    (h : url.segments? = some (front ++ [last])) : url.lastSegment? = some last := by
  rw [Url.lastSegment?, h, Option.bind_some, List.getLast?_concat]

/-- A source suggests exactly the name that is written for it. -/
lemma suggests_iff : Suggests urls source r ↔ r = printable (plainName urls source) := by
  have hfallback : printable fallbackName = fallbackName := by decide
  constructor
  · intro h
    unfold plainName
    rcases h with ⟨hread, hsegments, hsome, hstem⟩ | hread | ⟨hread, hsegments⟩ | ⟨hread, hsegments⟩
    · rw [segment?_of_ok hread, lastSegment?_of_concat hsegments, Option.filter_some, if_pos (by simpa),
        hasStem_iff.mp hstem]
    · rw [segment?_of_error hread, hfallback]
    · rw [segment?_of_ok hread, Url.lastSegment?, hsegments, Option.bind_none, Option.filter_none,
        hfallback]
    · rw [segment?_of_ok hread, lastSegment?_of_concat hsegments]
      exact hfallback.symm
  · rintro rfl
    unfold plainName
    rcases hread : urls.parse source.toList with refusal | url
    · rw [segment?_of_error hread, hfallback]
      exact .unread hread
    rcases hsegments : url.segments? with _ | segs
    · rw [segment?_of_ok hread, Url.lastSegment?, hsegments, Option.bind_none, Option.filter_none,
        hfallback]
      exact .noSegments hread hsegments
    obtain ⟨front, last, rfl⟩ := exists_last hsegments
    rw [segment?_of_ok hread, lastSegment?_of_concat hsegments, Option.filter_some]
    by_cases hsome : last = []
    · subst hsome
      exact hfallback.symm ▸ .emptySegment hread hsegments
    · rw [if_pos (by simpa)]
      exact .segment hread hsegments hsome (hasStem_iff.mpr rfl)

end Names

/-! ## The value as a whole -/

/-- An extension is written as it is. -/
lemma quotedName_extension (format : Image.Format) :
    quotedName ('.' :: format.extension.toList) = '.' :: format.extension.toList ∧
      printable ('.' :: format.extension.toList) = '.' :: format.extension.toList := by
  cases format <;> simp [Image.Format.extension, quotedName, printable, isControl]

lemma value_eq (source : String) (format : Image.Format) (urls : Url.Reader) :
    value source format urls = "inline; filename=\"".toList ++
      quotedName (plainName urls source ++ '.' :: format.extension.toList) ++ ['"'] := by
  unfold value
  generalize "inline; filename=\"".toList = word
  rw [name_eq, quotedName_append (plainName urls source), (quotedName_extension format).1]
  simp

lemma isControl_of_mem_value {source : String} {format : Image.Format} {urls : Url.Reader} {c : Char}
    (hc : c ∈ value source format urls) : isControl c = false := by
  have hword : ∀ c ∈ "inline; filename=\"".toList, isControl c = false := by
    simp [isControl]
  rw [value_eq, List.mem_append, List.mem_append, List.mem_singleton] at hc
  rcases hc with (hc | hc) | rfl
  · exact hword c hc
  · exact isControl_of_mem_quotedName hc
  · rfl

/-- The value suggests the name of the source with the extension of the format, with any reader of
references: it is a word and one quoted string, which stands for them and ends where the value ends. No
control is in it, so that it is a legal field value. -/
theorem contained_value (urls : Url.Reader) (source : String) (format : Image.Format) :
    ∃ (name : List Char) (inside : Bytes),
      (∀ other, Suggests urls source other ↔ other = name) ∧
      Utf8.encode (value source format urls) =
        Utf8.ofString "inline; filename=" ++ (0x22 :: inside ++ [0x22]) ∧
      QuotedText inside (Utf8.encode (name ++ '.' :: format.extension.toList)) ∧
      (∀ inside' text rest, QuotedText inside' text →
        0x22 :: inside ++ [0x22] = 0x22 :: (inside' ++ 0x22 :: rest) →
        inside' = inside ∧ text = Utf8.encode (name ++ '.' :: format.extension.toList) ∧ rest = []) ∧
      (∀ c ∈ value source format urls, isControl c = false) ∧
      Http.isValue (Utf8.encode (value source format urls)) = true := by
  set full := plainName urls source ++ '.' :: format.extension.toList with hfull
  have hprintable : printable full =
      printable (plainName urls source) ++ '.' :: format.extension.toList := by
    rw [hfull, printable, List.filter_append, ← printable, ← printable, (quotedName_extension format).2]
  have hquoted := quotedText_encode full
  rw [hprintable] at hquoted
  refine ⟨printable (plainName urls source), Utf8.encode (quotedName full), fun _ => suggests_iff, ?_,
    hquoted, fun inside text rest htext heq => ?_, fun c hc => isControl_of_mem_value hc,
    isValue_encode fun c hc => isControl_of_mem_value hc⟩
  · have hword : Utf8.ofString "inline; filename=\"" = Utf8.ofString "inline; filename=" ++ [0x22] := by
      decide +kernel
    rw [value_eq, Utf8.encode_append, Utf8.encode_append, ← Utf8.ofString, hword]
    simp only [List.append_assoc, List.cons_append, List.nil_append]
    rfl
  · obtain ⟨hinside, hmeaning, hrest⟩ := htext.unambiguous hquoted (List.cons.inj heq).2.symm
    exact ⟨hinside, hmeaning, hrest⟩

end Disposition

end Gateway
