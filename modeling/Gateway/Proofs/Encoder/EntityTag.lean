import Mathlib
import Gateway.Proofs.Encoder.Validator
import Gateway.Proofs.Text.Cutting
import Gateway.Proofs.Text.Digits

/-!
# Entity tags

A client writes the validators of its copies as a field of entity tags: an asterisk, or a list of quoted
tags separated by commas, each perhaps marked as weak and with blanks around it. What stands between the
quotes of a tag may contain commas, asterisks and bytes beyond ASCII.

The reader of this field (`Validator.covers`) knows nothing of quotes: it skips the lines that it cannot
read and cuts the others at every comma. A validator has no comma of its own, so that it is still
found where it is listed in a line that can be read, and a part of another tag is never taken for it. But
an asterisk between two commas of one tag is taken for the field that stands for all copies.
-/

namespace Gateway

/-- The value of a name as a whole: its lines, one after the other, with a comma and a blank between
neighbours. -/
def Http.Fields.combined (name : String) (fs : Http.Fields) : Bytes :=
  Text.join [0x2C, 0x20] (Http.Fields.values name fs)

namespace Validator

/-! ## The grammar of the field -/

/-- A tag as a client may write it. -/
structure EntityTag where
  weak : Bool
  /-- What stands between the quotes. -/
  inner : Bytes
  legal : ∀ b ∈ inner, b = 0x21 ∨ (0x23 ≤ b ∧ b ≤ 0x7E) ∨ 0x80 ≤ b

namespace EntityTag

/-- A tag between its quotes, without the mark of a weak one. -/
def quoted (e : EntityTag) : Bytes := 0x22 :: e.inner ++ [0x22]

/-- The mark of a weak tag. -/
def mark (e : EntityTag) : Bytes := if e.weak then Utf8.ofString "W/" else []

/-- A tag as it is written. -/
def bytes (e : EntityTag) : Bytes := e.mark ++ e.quoted

lemma mark_eq (e : EntityTag) : e.mark = if e.weak then [0x57, 0x2F] else [] := by
  have hmark : Utf8.ofString "W/" = [0x57, 0x2F] := by decide +kernel
  rw [mark, hmark]

end EntityTag

/-- A member of a list, with the blanks around it. A member may be empty. -/
structure Member where
  left : Bytes
  tag? : Option EntityTag
  right : Bytes
  blank : ∀ b ∈ left ++ right, b = 0x20 ∨ b = 9

namespace Member

/-- A member as it is written. -/
def bytes (m : Member) : Bytes := m.left ++ m.tag?.elim [] EntityTag.bytes ++ m.right

end Member

/-- Whether a value is a list of some tags. -/
def Enumerates (v : Bytes) (tags : List EntityTag) : Prop :=
  ∃ ms : List Member, ms ≠ [] ∧ v = Text.join [0x2C] (ms.map Member.bytes) ∧
    tags = ms.filterMap Member.tag?

/-- What the field of a request stands for. -/
inductive Condition where
  /-- All copies. -/
  | any
  /-- The copies that have one of these tags. -/
  | oneOf (tags : List EntityTag)

namespace Condition

/-- The tags that are listed. -/
def tags : Condition → List EntityTag
  | any => []
  | oneOf tags => tags

/-- Whether a field is written for a condition. -/
inductive Written : Bytes → Condition → Prop where
  | any {left right : Bytes} (blank : ∀ b ∈ left ++ right, b = 0x20 ∨ b = 9) :
      Written (left ++ [0x2A] ++ right) any
  | oneOf {v : Bytes} {tags : List EntityTag} (h : Enumerates v tags) : Written v (oneOf tags)

/-- Whether a condition covers a tag, given between its quotes: the mark of a weak tag does not count. -/
def Covers (c : Condition) (tag : Bytes) : Prop := c = any ∨ ∃ e ∈ c.tags, e.quoted = tag

end Condition

/-- Whether a tag is listed in a line that can be read. -/
def EntityTag.Readable (e : EntityTag) (fs : Http.Fields) : Prop :=
  ∃ v ∈ Http.Fields.values "if-none-match" fs, Http.IsVisible v ∧
    ∃ tags, Enumerates v tags ∧ e ∈ tags

/-! ## The pieces of a value -/

section Pieces

variable {tag : List Char}

/-- Whether a piece of a value is taken for a validator: between blanks, it is an asterisk or the
validator, perhaps marked as weak. -/
def TakenFor (tag piece : Bytes) : Prop :=
  ∃ left item right, piece = left ++ item ++ right ∧ (∀ b ∈ left ++ right, b = 0x20 ∨ b = 9) ∧
    (item = [0x2A] ∨ item = tag ∨ item = Utf8.ofString "W/" ++ tag)

lemma coveredBy_iff (hweak : Text.afterStart ['W', '/'] tag = none) {item : List Char} :
    coveredBy tag item = true ↔ item = ['*'] ∨ item = tag ∨ item = ['W', '/'] ++ tag := by
  rw [coveredBy, Bool.or_eq_true, beq_iff_eq, beq_iff_eq]
  apply or_congr_right
  rcases h : Text.afterStart ['W', '/'] item with _ | rest
  · have hne : item ≠ ['W', '/'] ++ tag := by
      intro hitem
      rw [Text.afterStart_eq_some_iff.mpr hitem] at h
      exact Option.some_ne_none _ h
    rw [Option.getD_none, or_iff_left hne]
  · obtain rfl := Text.afterStart_eq_some_iff.mp h
    have hne : ['W', '/'] ++ rest ≠ tag := by
      intro htag
      rw [Text.afterStart_eq_some_iff.mpr htag.symm] at hweak
      exact Option.some_ne_none _ hweak
    rw [Option.getD_some, or_iff_right hne, List.append_cancel_left_eq]

/-- Bytes are blank to the reader of a list if they are a blank or a tab. -/
lemma isBlank_map_iff {bs : Bytes} :
    (∀ c ∈ bs.map Http.charOf, isBlank c = true) ↔ ∀ b ∈ bs, b = 0x20 ∨ b = 9 := by
  have hblank (b : UInt8) : isBlank (Http.charOf b) = true ↔ b = 0x20 ∨ b = 9 := by
    have hspace : ' ' = Http.charOf 0x20 := rfl
    have htab : '\t' = Http.charOf 9 := rfl
    rw [isBlank, Bool.or_eq_true, decide_eq_true_eq, decide_eq_true_eq, hspace, htab,
      Http.charOf_injective.eq_iff, Http.charOf_injective.eq_iff]
  rw [List.forall_mem_map]
  exact forall₂_congr fun b _ => hblank b

/-- The characters of an item that is taken for a validator. -/
lemma coveredBy_map_iff (hmarks : ∀ c ∈ tag, Http.IsMark c)
    (hweak : Text.afterStart ['W', '/'] tag = none) {item : Bytes} :
    coveredBy tag (item.map Http.charOf) = true ↔
      item = [0x2A] ∨ item = Utf8.encode tag ∨ item = Utf8.ofString "W/" ++ Utf8.encode tag := by
  have hinjective := List.map_injective_iff.mpr Http.charOf_injective
  have hstar : ['*'] = ([0x2A] : Bytes).map Http.charOf := rfl
  have hplain : (Utf8.encode tag).map Http.charOf = tag := Http.map_charOf_encode hmarks
  have hmarked : (Utf8.ofString "W/" ++ Utf8.encode tag).map Http.charOf = ['W', '/'] ++ tag := by
    rw [List.map_append, hplain]
    rfl
  rw [coveredBy_iff hweak, hstar, hinjective.eq_iff, ← hmarked, hinjective.eq_iff]
  conv_lhs => rw [← hplain, hinjective.eq_iff, hplain]

/-- What the reader of a list makes of a piece, in terms of its bytes. -/
lemma coveredBy_trimBy_iff (hmarks : ∀ c ∈ tag, Http.IsMark c ∧ c ≠ ',') (hnonempty : tag ≠ [])
    (hweak : Text.afterStart ['W', '/'] tag = none) {piece : Bytes} :
    coveredBy tag (Text.trimBy isBlank (piece.map Http.charOf)) = true ↔
      TakenFor (Utf8.encode tag) piece := by
  have hvisible : ∀ c ∈ tag, Http.IsMark c := fun c hc => (hmarks c hc).1
  constructor
  · intro hcovered
    obtain ⟨left, right, hpiece, hblank⟩ := Text.exists_trimBy isBlank (piece.map Http.charOf)
    obtain ⟨front, right, rfl, hfront, rfl⟩ := List.map_eq_append_iff.mp hpiece
    obtain ⟨left, item, rfl, rfl, hmap⟩ := List.map_eq_append_iff.mp hfront
    rw [← List.map_append, isBlank_map_iff] at hblank
    rw [← hmap, coveredBy_map_iff hvisible hweak] at hcovered
    exact ⟨left, item, right, rfl, hblank, hcovered⟩
  · rintro ⟨left, item, right, rfl, hblank, hitem⟩
    have hread : item.map Http.charOf ≠ [] ∧ ∀ c ∈ item.map Http.charOf, isBlank c = false := by
      rcases hitem with rfl | hmember
      · refine ⟨List.cons_ne_nil _ _, fun c hc => ?_⟩
        obtain rfl : c = '*' := List.mem_singleton.mp hc
        rfl
      · obtain ⟨-, hsome, hread⟩ := read_member hmarks hnonempty hweak hmember
        exact ⟨hsome, fun c hc => isBlank_of_isMark (hread c hc).1⟩
    obtain ⟨hsome, hfull⟩ := hread
    rw [← isBlank_map_iff, List.map_append, List.forall_mem_append] at hblank
    rw [List.map_append, List.map_append, Text.trimBy_pad hblank.1 hblank.2 hsome
      (hfull _ (List.head_mem hsome)) (hfull _ (List.getLast_mem hsome)),
      coveredBy_map_iff hvisible hweak]
    exact hitem

/-- A request covers a validator if a piece of a line that can be read is taken for it. -/
lemma covers_iff_exists_piece (hmarks : ∀ c ∈ tag, Http.IsMark c ∧ c ≠ ',') (hnonempty : tag ≠ [])
    (hweak : Text.afterStart ['W', '/'] tag = none) {fs : Http.Fields} :
    covers fs tag = true ↔ ∃ v ∈ Http.Fields.values "if-none-match" fs, Http.IsVisible v ∧
      ∃ piece ∈ Text.split 0x2C v, TakenFor (Utf8.encode tag) piece := by
  have hcut (v : Bytes) : Text.split ',' (v.map Http.charOf) =
      (Text.split 0x2C v).map (List.map Http.charOf) := by
    rw [show ',' = Http.charOf 0x2C from rfl, Text.split_map Http.charOf_injective]
  simp only [covers, items, List.any_eq_true, List.mem_flatMap, List.mem_filterMap, List.mem_map,
    Http.visible?_eq_some_iff, ← coveredBy_trimBy_iff hmarks hnonempty hweak]
  constructor
  · rintro ⟨_, ⟨_, ⟨v, hv, hvisible, rfl⟩, chars, hchars, rfl⟩, hcovered⟩
    rw [hcut] at hchars
    obtain ⟨piece, hpiece, rfl⟩ := List.mem_map.mp hchars
    exact ⟨v, hv, hvisible, piece, hpiece, hcovered⟩
  · rintro ⟨v, hv, hvisible, piece, hpiece, hcovered⟩
    refine ⟨_, ⟨_, ⟨v, hv, hvisible, rfl⟩, piece.map Http.charOf, ?_, rfl⟩, hcovered⟩
    rw [hcut]
    exact List.mem_map_of_mem hpiece

end Pieces

/-! ## The pieces of a list -/

/-- Whether the reader of the field takes a listed tag for a given one. -/
def EntityTag.IsTakenFor (e : EntityTag) (tag : Bytes) : Prop :=
  e.quoted = tag ∨ Utf8.ofString ",*," <:+: e.inner

lemma starred_eq : Utf8.ofString ",*," = 0x2C :: [0x2A] ++ [0x2C] := by
  decide +kernel

section Members

variable {m : Member} {e : EntityTag} {b : UInt8} {digits : Bytes}

lemma EntityTag.notMem_inner (e : EntityTag) :
    (0x20 : UInt8) ∉ e.inner ∧ (9 : UInt8) ∉ e.inner ∧ (0x22 : UInt8) ∉ e.inner := by
  refine ⟨fun h => ?_, fun h => ?_, fun h => ?_⟩ <;> exact absurd (e.legal _ h) (by decide)

/-- What stands in front of the quotes of a tag. -/
lemma Member.mem_front (hb : b ∈ m.left ++ e.mark) : b = 0x20 ∨ b = 9 ∨ b = 0x57 ∨ b = 0x2F := by
  rcases List.mem_append.mp hb with hb | hb
  · rcases m.blank b (List.mem_append_left _ hb) with rfl | rfl <;> simp
  · rw [EntityTag.mark_eq] at hb
    split at hb
    · simpa using Or.inr (Or.inr hb)
    · exact absurd hb List.not_mem_nil

lemma Member.bytes_of_some (h : m.tag? = some e) :
    m.bytes = (m.left ++ e.mark) ++ 0x22 :: (e.inner ++ 0x22 :: m.right) := by
  simp [Member.bytes, h, EntityTag.bytes, EntityTag.quoted]

lemma Member.bytes_of_none (h : m.tag? = none) : m.bytes = m.left ++ m.right := by
  simp [Member.bytes, h]

/-- An empty member has no piece that is taken for a tag. -/
lemma Member.not_takenFor_of_none (h : m.tag? = none) {piece : Bytes}
    (hpiece : piece ∈ Text.split 0x2C m.bytes) : ¬ TakenFor (0x22 :: digits ++ [0x22]) piece := by
  rw [m.bytes_of_none h] at hpiece
  have hmem {b : UInt8} (hb : b ∈ piece) : b = 0x20 ∨ b = 9 ∨ b = 0x2C := by
    have hb := (Text.enclosed_of_mem_split hpiece).2.subset
      (List.mem_append_left _ (List.mem_cons_of_mem _ hb))
    rw [List.mem_append, List.mem_cons, List.mem_singleton] at hb
    rcases hb with (rfl | hb) | rfl
    · simp
    · rcases m.blank b hb with rfl | rfl <;> simp
    · simp
  rintro ⟨left, item, right, rfl, -, hitem⟩
  rcases hitem with rfl | rfl | rfl
  · exact absurd (hmem (b := 0x2A) (by simp)) (by decide)
  · exact absurd (hmem (b := 0x22) (by simp)) (by decide)
  · exact absurd (hmem (b := 0x22) (by simp)) (by decide)

/-- An asterisk between two commas, perhaps with blanks, occurs inside the quotes only, and there without
blanks. -/
lemma EntityTag.infix_inner_of_blank {front back left right : Bytes} (hfront : 0x2A ∉ front)
    (hback : 0x2A ∉ back) (hblank : ∀ b ∈ left ++ right, b = 0x20 ∨ b = 9)
    (h : 0x2C :: (left ++ [0x2A] ++ right) ++ [0x2C] <:+: front ++ 0x22 :: (e.inner ++ 0x22 :: back)) :
    Utf8.ofString ",*," <:+: e.inner := by
  have hquote : (0x22 : UInt8) ∉ 0x2C :: (left ++ [0x2A] ++ right) ++ [0x2C] := by
    have hnot : (0x22 : UInt8) ∉ left ++ right := fun hmem => absurd (hblank _ hmem) (by decide)
    simpa using hnot
  have hstar : (0x2A : UInt8) ∈ 0x2C :: (left ++ [0x2A] ++ right) ++ [0x2C] := by simp
  rw [Text.infix_append_cons_iff hquote, Text.infix_append_cons_iff hquote] at h
  rcases h with h | h | h
  · exact absurd (h.subset hstar) hfront
  · have hnil : left ++ right = [] := by
      refine List.eq_nil_iff_forall_not_mem.mpr fun b hb => ?_
      have hmem : b ∈ e.inner := h.subset (by simp only [List.mem_append] at hb; simp; tauto)
      rcases hblank b hb with rfl | rfl
      · exact e.notMem_inner.1 hmem
      · exact e.notMem_inner.2.1 hmem
    obtain ⟨rfl, rfl⟩ := List.append_eq_nil_iff.mp hnil
    exact starred_eq ▸ h
  · exact absurd (h.subset hstar) hback

/-- A piece of a member that is taken for a tag is the tag, or an asterisk between two commas. -/
lemma Member.isTakenFor_of_takenFor (h : m.tag? = some e) (hquote : 0x22 ∉ digits) {piece : Bytes}
    (hpiece : piece ∈ Text.split 0x2C m.bytes) (htaken : TakenFor (0x22 :: digits ++ [0x22]) piece) :
    e.IsTakenFor (0x22 :: digits ++ [0x22]) := by
  have hbefore {b : UInt8} (hb : b ∈ 0x2C :: (m.left ++ e.mark)) : b ≠ 0x22 ∧ b ≠ 0x2A := by
    rcases List.mem_cons.mp hb with rfl | hb
    · decide
    · rcases Member.mem_front hb with rfl | rfl | rfl | rfl <;> decide
  have hafter {b : UInt8} (hb : b ∈ m.right ++ [0x2C]) : b ≠ 0x22 ∧ b ≠ 0x2A := by
    rcases List.mem_append.mp hb with hb | hb
    · rcases m.blank b (List.mem_append_right _ hb) with rfl | rfl <;> decide
    · obtain rfl := List.mem_singleton.mp hb
      decide
  obtain ⟨hcomma, henclosed⟩ := Text.enclosed_of_mem_split hpiece
  have hbytes : 0x2C :: m.bytes ++ [0x2C] =
      0x2C :: (m.left ++ e.mark) ++ 0x22 :: (e.inner ++ 0x22 :: (m.right ++ [0x2C])) := by
    simp [m.bytes_of_some h]
  rw [hbytes] at henclosed
  obtain ⟨left, item, right, rfl, hblank, hitem⟩ := htaken
  have hquoted (front back : Bytes) (hpart : front ++ (0x22 :: digits ++ [0x22]) ++ back =
      0x2C :: (left ++ item ++ right) ++ [0x2C]) : e.quoted = 0x22 :: digits ++ [0x22] := by
    have hinfix := (hpart ▸ List.infix_append front (0x22 :: digits ++ [0x22]) back).trans henclosed
    rw [Text.eq_of_enclosed_infix (fun h => (hbefore h).1 rfl) e.notMem_inner.2.2
      (fun h => (hafter h).1 rfl) hquote hinfix, EntityTag.quoted]
  rcases hitem with rfl | rfl | rfl
  · right
    exact e.infix_inner_of_blank (fun h => (hbefore h).2 rfl) (fun h => (hafter h).2 rfl) hblank
      henclosed
  · exact .inl (hquoted (0x2C :: left) (right ++ [0x2C]) (by simp))
  · exact .inl (hquoted (0x2C :: left ++ Utf8.ofString "W/") (right ++ [0x2C]) (by simp))

/-- Around the quotes of a member there is no comma. -/
lemma Member.comma_notMem_bytes (h : m.tag? = some e) (hcomma : 0x2C ∉ e.inner) :
    0x2C ∉ m.bytes := by
  have hfront : (0x2C : UInt8) ∉ m.left ++ e.mark := fun hb =>
    absurd (Member.mem_front hb) (by decide)
  have hright : (0x2C : UInt8) ∉ m.right := fun hb =>
    absurd (m.blank _ (List.mem_append_right _ hb)) (by decide)
  rw [m.bytes_of_some h]
  simp only [List.mem_append, List.mem_cons, not_or] at hfront ⊢
  exact ⟨hfront, by decide, hcomma, by decide, hright⟩

/-- The tag is found in a member, and so is an asterisk between two commas. -/
lemma Member.exists_takenFor (h : m.tag? = some e) (hcomma : 0x2C ∉ digits)
    (he : e.IsTakenFor (0x22 :: digits ++ [0x22])) :
    ∃ piece ∈ Text.split 0x2C m.bytes, TakenFor (0x22 :: digits ++ [0x22]) piece := by
  rcases he with he | he
  · have hinner : e.inner = digits := by
      rw [EntityTag.quoted] at he
      exact List.append_cancel_right (List.cons.inj he).2
    rw [Text.split_of_not_mem (m.comma_notMem_bytes h (hinner ▸ hcomma))]
    refine ⟨m.bytes, List.mem_singleton_self _, m.left, e.bytes, m.right, ?_, m.blank, .inr ?_⟩
    · simp [Member.bytes, h]
    · rw [← he, EntityTag.bytes, EntityTag.mark]
      split
      · exact .inr rfl
      · exact .inl rfl
  · have hinner : e.inner <:+: m.bytes := by
      rw [m.bytes_of_some h]
      exact ⟨m.left ++ e.mark ++ [0x22], 0x22 :: m.right, by simp⟩
    refine ⟨[0x2A], ?_, [], [0x2A], [], rfl, by simp, .inl rfl⟩
    exact Text.mem_split_of_enclosed (by decide) ((starred_eq ▸ he).trans hinner)

/-- In a list, the pieces that are taken for a tag are those of the listed tags that are. -/
lemma Enumerates.exists_takenFor_iff {v : Bytes} {tags : List EntityTag} (h : Enumerates v tags)
    (hquote : 0x22 ∉ digits) (hcomma : 0x2C ∉ digits) :
    (∃ piece ∈ Text.split 0x2C v, TakenFor (0x22 :: digits ++ [0x22]) piece) ↔
      ∃ e ∈ tags, e.IsTakenFor (0x22 :: digits ++ [0x22]) := by
  obtain ⟨ms, hsome, rfl, rfl⟩ := h
  rw [Text.split_join (mt List.map_eq_nil_iff.mp hsome)]
  simp only [List.mem_flatMap, List.mem_map, List.mem_filterMap]
  constructor
  · rintro ⟨piece, ⟨_, ⟨m, hm, rfl⟩, hpiece⟩, htaken⟩
    rcases htag : m.tag? with _ | e
    · exact absurd htaken (m.not_takenFor_of_none htag hpiece)
    · exact ⟨e, ⟨m, hm, htag⟩, m.isTakenFor_of_takenFor htag hquote hpiece htaken⟩
  · rintro ⟨e, ⟨m, hm, htag⟩, he⟩
    obtain ⟨piece, hpiece, htaken⟩ := m.exists_takenFor htag hcomma he
    exact ⟨piece, ⟨_, ⟨m, hm, rfl⟩, hpiece⟩, htaken⟩

end Members

/-! ## The lines of a field -/

section Lines

variable {v w : Bytes} {tags : List EntityTag}

/-- A comma with a blank after it separates members. -/
lemma Member.not_gap_infix (m : Member) : ¬ [0x2C, 0x20] <:+: m.bytes := by
  intro h
  have hquote : (0x22 : UInt8) ∉ ([0x2C, 0x20] : Bytes) := by decide
  have hcomma : (0x2C : UInt8) ∈ ([0x2C, 0x20] : Bytes) := by decide
  have hspace : (0x20 : UInt8) ∈ ([0x2C, 0x20] : Bytes) := by decide
  rcases htag : m.tag? with _ | e
  · rw [m.bytes_of_none htag] at h
    exact absurd (m.blank _ (h.subset hcomma)) (by decide)
  · rw [m.bytes_of_some htag, Text.infix_append_cons_iff hquote,
      Text.infix_append_cons_iff hquote] at h
    rcases h with h | h | h
    · exact absurd (Member.mem_front (h.subset hcomma)) (by decide)
    · exact e.notMem_inner.1 (h.subset hspace)
    · exact absurd (m.blank _ (List.mem_append_right _ (h.subset hcomma))) (by decide)

/-- The first blank of a member is in front of what is listed. -/
lemma Member.exists_tail {m : Member} {rest : Bytes} (h : m.bytes = 0x20 :: rest) :
    ∃ n : Member, n.tag? = m.tag? ∧ n.bytes = rest := by
  obtain ⟨left, tag?, right, hblank⟩ := m
  rcases left with _ | ⟨b, left⟩
  · rcases tag? with _ | e
    · obtain rfl : right = 0x20 :: rest := h
      exact ⟨⟨[], none, rest, fun b hb => hblank b (List.mem_cons_of_mem _ hb)⟩, rfl, rfl⟩
    · simp only [Member.bytes, Option.elim_some, EntityTag.bytes, EntityTag.mark_eq] at h
      split at h
      · exact absurd (List.cons.inj h).1 (by decide)
      · exact absurd (List.cons.inj h).1 (by decide)
  · exact ⟨⟨left, tag?, right, fun b hb => hblank b (List.mem_cons_of_mem _ hb)⟩, rfl,
      (List.cons.inj h).2⟩

/-- A blank in front of a list can be left out. -/
lemma Enumerates.of_cons_blank (h : Enumerates (0x20 :: v) tags) : Enumerates v tags := by
  obtain ⟨ms, hsome, hv, rfl⟩ := h
  obtain ⟨m, ms, rfl⟩ := List.exists_cons_of_ne_nil hsome
  rw [List.map_cons, Text.join_cons] at hv
  rcases List.cons_eq_append_iff.mp hv with ⟨-, hrest⟩ | ⟨rest, hbytes, rfl⟩
  · -- behind an empty member there is a comma or nothing
    rcases ms with _ | ⟨n, ms⟩
    · exact absurd hrest.symm (List.cons_ne_nil _ _)
    · exact absurd (List.cons.inj hrest).1 (by decide)
  · obtain ⟨n, htag, rfl⟩ := Member.exists_tail hbytes
    refine ⟨n :: ms, List.cons_ne_nil _ _, ?_, ?_⟩
    · rw [List.map_cons, Text.join_cons]
    · rw [List.filterMap_cons, List.filterMap_cons, htag]

/-- A list that goes over two lines consists of a list in each of them. -/
lemma Enumerates.exists_append (h : Enumerates (v ++ 0x2C :: 0x20 :: w) tags) :
    ∃ front back, tags = front ++ back ∧ Enumerates v front ∧ Enumerates w back := by
  obtain ⟨ms, -, hv, rfl⟩ := h
  obtain ⟨ys, zs, hys, hzs, hcut, rfl, hw⟩ := Text.exists_join_of_gap (by decide)
    (List.forall_mem_map.mpr fun m _ => m.not_gap_infix) hv.symm
  obtain ⟨front, back, rfl, rfl, rfl⟩ := List.map_eq_append_iff.mp hcut
  refine ⟨_, _, List.filterMap_append, ⟨front, mt List.map_eq_nil_iff.mpr hys, rfl, rfl⟩, ?_⟩
  exact of_cons_blank ⟨back, mt List.map_eq_nil_iff.mpr hzs, hw, rfl⟩

/-- A tag is written with quotes. -/
lemma Enumerates.eq_nil (h : Enumerates [] tags) : tags = [] := by
  obtain ⟨ms, hsome, hv, rfl⟩ := h
  obtain ⟨m, ms, rfl⟩ := List.exists_cons_of_ne_nil hsome
  rw [List.map_cons, Text.join_cons] at hv
  obtain ⟨hbytes, hrest⟩ := List.append_eq_nil_iff.mp hv.symm
  rcases ms with _ | ⟨n, ms⟩
  · rcases htag : m.tag? with _ | e
    · simp [htag]
    · rw [m.bytes_of_some htag] at hbytes
      simp at hbytes
  · exact absurd hrest (List.cons_ne_nil _ _)

/-- Every line of a list is a list, and all that is listed is listed in one of them. -/
lemma Enumerates.exists_line {vs : List Bytes} (h : Enumerates (Text.join [0x2C, 0x20] vs) tags) :
    (∀ v ∈ vs, ∃ part, Enumerates v part ∧ part ⊆ tags) ∧
      ∀ e ∈ tags, ∃ v ∈ vs, ∃ part, Enumerates v part ∧ e ∈ part := by
  induction vs generalizing tags with
  | nil =>
    obtain rfl := h.eq_nil
    simp
  | cons v vs ih =>
    rcases vs with _ | ⟨w, vs⟩
    · have hv : Enumerates v tags := h
      exact ⟨by simpa using ⟨tags, hv, List.Subset.refl _⟩, fun e he => ⟨v, by simp, tags, hv, he⟩⟩
    · have hjoin : Text.join [0x2C, 0x20] (v :: w :: vs) =
          v ++ 0x2C :: 0x20 :: Text.join [0x2C, 0x20] (w :: vs) := by simp [Text.join]
      rw [hjoin] at h
      obtain ⟨front, back, rfl, hfront, hback⟩ := h.exists_append
      obtain ⟨hlines, htags⟩ := ih hback
      refine ⟨List.forall_mem_cons.mpr ⟨⟨front, hfront, List.subset_append_left _ _⟩, ?_⟩, ?_⟩
      · intro u hu
        obtain ⟨part, hpart, hsub⟩ := hlines u hu
        exact ⟨part, hpart, List.Subset.trans hsub (List.subset_append_right _ _)⟩
      · intro e he
        rcases List.mem_append.mp he with he | he
        · exact ⟨v, List.mem_cons_self, front, hfront, he⟩
        · obtain ⟨u, hu, part, hpart, hmem⟩ := htags e he
          exact ⟨u, List.mem_cons_of_mem _ hu, part, hpart, hmem⟩

end Lines

/-! ## What the reader of the field makes of it -/

section Reading

variable {source : Bytes} {t : Image.Transform} {fs : Http.Fields} {c : Condition}

/-- A visible character may stand in a tag if it is not a quote. -/
lemma legal_of_isMark {c : Char} (hmark : Http.IsMark c) (hquote : c ≠ '"') :
    c.toNat.toUInt8 = 0x21 ∨ (0x23 ≤ c.toNat.toUInt8 ∧ c.toNat.toUInt8 ≤ 0x7E) ∨
      0x80 ≤ c.toNat.toUInt8 := by
  obtain ⟨hlow, hhigh⟩ := hmark
  have hbyte : c.toNat.toUInt8.toNat = c.toNat := Nat.mod_eq_of_lt (hhigh.trans (by decide))
  have hne : c.toNat ≠ 0x22 := by
    intro h
    exact hquote (Char.toNat_inj.mp h)
  rw [← UInt8.toNat_inj, UInt8.le_iff_toNat_le, UInt8.le_iff_toNat_le, hbyte]
  change c.toNat = 0x21 ∨ (0x23 ≤ c.toNat ∧ c.toNat ≤ 0x7E) ∨ _
  omega

/-- A validator is itself a tag, and it has no comma. -/
lemma exists_entityTag (source : Bytes) (t : Image.Transform) :
    ∃ e : EntityTag, e.weak = false ∧ e.quoted = Utf8.encode (calculate source t) ∧
      0x2C ∉ e.inner := by
  obtain ⟨hex, hcalculate, hdigits⟩ : ∃ hex, calculate source t = ['"'] ++ hex ++ ['"'] ∧
      ∀ c ∈ hex, Text.IsLowerHex c :=
    ⟨_, rfl, fun c hc => Text.isLowerHex_of_mem_hexBytes hc⟩
  have hmem {c : Char} (hc : c ∈ hex) : Http.IsMark c ∧ c ≠ ',' := by
    have hmem : c ∈ calculate source t := by simp [hcalculate, hc]
    exact isMark_calculate hmem
  have hbytes : Utf8.encode hex = hex.map fun c => c.toNat.toUInt8 :=
    Http.encode_of_marks fun c hc => (hmem hc).1
  have hlegal : ∀ b ∈ Utf8.encode hex, b = 0x21 ∨ (0x23 ≤ b ∧ b ≤ 0x7E) ∨ 0x80 ≤ b := by
    intro b hb
    rw [hbytes] at hb
    obtain ⟨c, hc, rfl⟩ := List.mem_map.mp hb
    apply legal_of_isMark (hmem hc).1
    rintro rfl
    have hdigit := hdigits _ hc
    unfold Text.IsLowerHex at hdigit
    exact absurd hdigit (by decide)
  have hcomma : 0x2C ∉ Utf8.encode hex := by
    intro hb
    have hread : (Utf8.encode hex).map Http.charOf = hex :=
      Http.map_charOf_encode fun c hc => (hmem hc).1
    have hchar : Http.charOf 0x2C ∈ hex := hread ▸ List.mem_map_of_mem hb
    exact (hmem hchar).2 rfl
  refine ⟨⟨false, Utf8.encode hex, hlegal⟩, rfl, ?_, hcomma⟩
  have hmark : Utf8.encode ['"'] = [0x22] := rfl
  rw [hcalculate, Utf8.encode_append, Utf8.encode_append, hmark]
  rfl

/-- A request covers a validator if a line that can be read has a piece that is taken for it. -/
lemma covers_calculate_iff : covers fs (calculate source t) = true ↔
    ∃ v ∈ Http.Fields.values "if-none-match" fs, Http.IsVisible v ∧
      ∃ piece ∈ Text.split 0x2C v, TakenFor (Utf8.encode (calculate source t)) piece := by
  apply covers_iff_exists_piece (fun _ hc => isMark_calculate hc) (List.cons_ne_nil _ _)
  -- a validator begins with a quote
  rfl

/-- A list covers a validator if the reader takes a tag for it that is listed in a line it can read. -/
lemma covers_iff_of_enumerates {tags : List EntityTag}
    (h : Enumerates (Http.Fields.combined "if-none-match" fs) tags) :
    covers fs (calculate source t) = true ↔
      ∃ e ∈ tags, e.Readable fs ∧ e.IsTakenFor (Utf8.encode (calculate source t)) := by
  obtain ⟨tag, -, htag, hcomma⟩ := exists_entityTag source t
  have hquote := tag.notMem_inner.2.2
  rw [covers_calculate_iff, ← htag, EntityTag.quoted]
  constructor
  · rintro ⟨v, hv, hvisible, htaken⟩
    obtain ⟨part, hpart, hsub⟩ := h.exists_line.1 v hv
    obtain ⟨e, he, hequal⟩ := (hpart.exists_takenFor_iff hquote hcomma).mp htaken
    exact ⟨e, hsub he, ⟨v, hv, hvisible, part, hpart, he⟩, hequal⟩
  · rintro ⟨e, -, ⟨v, hv, hvisible, part, hpart, he⟩, hequal⟩
    exact ⟨v, hv, hvisible, (hpart.exists_takenFor_iff hquote hcomma).mpr ⟨e, he, hequal⟩⟩

/-- An asterisk covers every validator. -/
lemma covers_of_asterisk {left right : Bytes} (hblank : ∀ b ∈ left ++ right, b = 0x20 ∨ b = 9)
    (h : Http.Fields.combined "if-none-match" fs = left ++ [0x2A] ++ right) :
    covers fs (calculate source t) = true := by
  have hbytes {b : UInt8} (hb : b ∈ left ++ [0x2A] ++ right) : b = 0x20 ∨ b = 9 ∨ b = 0x2A := by
    simp only [List.mem_append, List.mem_singleton] at hb hblank
    have := hblank b
    tauto
  have hcomma : (0x2C : UInt8) ∉ left ++ [0x2A] ++ right := fun hb =>
    absurd (hbytes hb) (by decide)
  have hlines : Http.Fields.values "if-none-match" fs = [left ++ [0x2A] ++ right] := by
    unfold Http.Fields.combined at h
    rcases hvs : Http.Fields.values "if-none-match" fs with _ | ⟨v, _ | ⟨w, vs⟩⟩
    · rw [hvs] at h
      simp [Text.join] at h
    · rw [hvs] at h
      exact congrArg (fun v => [v]) h
    · rw [hvs] at h
      exact absurd (h ▸ by simp [Text.join]) hcomma
  have hvisible : Http.IsVisible (left ++ [0x2A] ++ right) := by
    intro b hb
    rcases hbytes hb with rfl | rfl | rfl <;> decide
  rw [covers_calculate_iff, hlines]
  refine ⟨_, List.mem_singleton_self _, hvisible, _, ?_, left, [0x2A], right, rfl, hblank, .inl rfl⟩
  rw [Text.split_of_not_mem hcomma]
  exact List.mem_singleton_self _

/-- The reader of the field finds a validator among the tags of the lines that it can read. It goes wrong
where a line cannot be read, and where a tag has an asterisk between two commas. -/
theorem covers_iff_of_written (h : c.Written (Http.Fields.combined "if-none-match" fs)) :
    (covers fs (calculate source t) = true ↔ c = .any ∨
      ∃ e ∈ c.tags, e.Readable fs ∧ e.IsTakenFor (Utf8.encode (calculate source t))) ∧
    ((∀ v ∈ Http.Fields.values "if-none-match" fs, Http.IsVisible v) →
      (∀ e ∈ c.tags, ¬ Utf8.ofString ",*," <:+: e.inner) →
      (covers fs (calculate source t) = true ↔ c.Covers (Utf8.encode (calculate source t)))) := by
  generalize hfield : Http.Fields.combined "if-none-match" fs = field at h
  rcases h with hblank | hlist
  · have hcovers : covers fs (calculate source t) = true := covers_of_asterisk hblank hfield
    exact ⟨iff_of_true hcovers (.inl rfl), fun _ _ => iff_of_true hcovers (.inl rfl)⟩
  · subst hfield
    have hany (tags : List EntityTag) : Condition.oneOf tags ≠ .any := Condition.noConfusion
    rw [or_iff_right (hany _)]
    refine ⟨covers_iff_of_enumerates hlist, fun hvisible hstar => ?_⟩
    rw [covers_iff_of_enumerates hlist, Condition.Covers, or_iff_right (hany _)]
    refine exists_congr fun e => and_congr_right fun he => ?_
    obtain ⟨v, hv, part, hpart, hmem⟩ := hlist.exists_line.2 e he
    rw [and_iff_right ⟨v, hv, hvisible v hv, part, hpart, hmem⟩, EntityTag.IsTakenFor,
      or_iff_left (hstar e he)]

end Reading

/-- A weak tag with a comma. -/
def commaTag : EntityTag := ⟨true, Utf8.ofString "a,b", by decide +kernel⟩

/-- A tag that is an asterisk. -/
def asteriskTag : EntityTag := ⟨false, Utf8.ofString "*", by decide +kernel⟩

/-- Two lines with a tag each, and a field of another name between them. -/
def twoLines : Http.Fields :=
  [("if-none-match", commaTag.bytes), ("accept", []), ("if-none-match", 9 :: asteriskTag.bytes)]

theorem covers_iff_of_twoLines :
    (Condition.oneOf [commaTag, asteriskTag]).Written
        (Http.Fields.combined "if-none-match" twoLines) ∧
      (∀ v ∈ Http.Fields.values "if-none-match" twoLines, Http.IsVisible v) ∧
      (∀ e ∈ [commaTag, asteriskTag], ¬ Utf8.ofString ",*," <:+: e.inner) ∧
      (covers twoLines (calculate [] .standard) = true ↔
        (Condition.oneOf [commaTag, asteriskTag]).Covers (Utf8.encode (calculate [] .standard))) := by
  have hwritten : (Condition.oneOf [commaTag, asteriskTag]).Written
      (Http.Fields.combined "if-none-match" twoLines) := by
    refine .oneOf ⟨[⟨[], some commaTag, [], by simp⟩, ⟨[0x20, 9], some asteriskTag, [], by simp⟩],
      List.cons_ne_nil _ _, ?_, rfl⟩
    decide +kernel
  have hvisible : ∀ v ∈ Http.Fields.values "if-none-match" twoLines, Http.IsVisible v := by
    unfold Http.IsVisible
    decide +kernel
  have hstar : ∀ e ∈ [commaTag, asteriskTag], ¬ Utf8.ofString ",*," <:+: e.inner := by
    decide +kernel
  exact ⟨hwritten, hvisible, hstar, (covers_iff_of_written hwritten).2 hvisible hstar⟩

/-! ## Where the reader goes wrong -/

/-- Tags can be listed without blanks. -/
lemma enumerates_join {tags : List EntityTag} (hsome : tags ≠ []) :
    Enumerates (Text.join [0x2C] (tags.map EntityTag.bytes)) tags := by
  set member : EntityTag → Member := fun e => ⟨[], some e, [], by simp⟩ with hmember
  refine ⟨tags.map member, mt List.map_eq_nil_iff.mp hsome, ?_, ?_⟩
  · rw [List.map_map]
    congr 1
    exact List.map_congr_left fun e _ => by simp [hmember, Member.bytes]
  · rw [List.filterMap_map]
    exact (List.filterMap_some).symm

/-- A tag with an asterisk between two commas. -/
def starredTag : EntityTag := ⟨false, Utf8.ofString "a,*,b", by decide +kernel⟩

/-- A tag with a byte beyond ASCII. -/
def accentedTag : EntityTag := ⟨false, [0xE9], by decide +kernel⟩

/-- A line with nothing but the tag with an asterisk. -/
def starredLine : Http.Fields := [("if-none-match", Utf8.ofString "\"a,*,b\"")]

/-- A line with a validator after a tag beyond ASCII. -/
def accentedLine (source : Bytes) (t : Image.Transform) : Http.Fields :=
  [("if-none-match", accentedTag.bytes ++ 0x2C :: Utf8.encode (calculate source t))]

/-- A tag with an asterisk between two commas is taken for every validator. -/
lemma covers_starredLine (source : Bytes) (t : Image.Transform) :
    (Condition.oneOf [starredTag]).Written (Http.Fields.combined "if-none-match" starredLine) ∧
      covers starredLine (calculate source t) = true ∧
      ¬ (Condition.oneOf [starredTag]).Covers (Utf8.encode (calculate source t)) := by
  have hbytes : Utf8.ofString "\"a,*,b\"" = Text.join [0x2C] [starredTag.bytes] := by decide +kernel
  have hline : Enumerates (Utf8.ofString "\"a,*,b\"") [starredTag] := by
    have hjoin := enumerates_join (List.cons_ne_nil starredTag [])
    exact hbytes ▸ hjoin
  have hvisible : Http.IsVisible (Utf8.ofString "\"a,*,b\"") := by
    unfold Http.IsVisible
    decide +kernel
  have hstar : Utf8.ofString ",*," <:+: starredTag.inner := by decide +kernel
  have hreadable : starredTag.Readable starredLine :=
    ⟨_, List.mem_singleton_self _, hvisible, _, hline, List.mem_singleton_self _⟩
  have hfield : Enumerates (Http.Fields.combined "if-none-match" starredLine) [starredTag] := hline
  refine ⟨.oneOf hfield, ?_, ?_⟩
  · apply (covers_iff_of_enumerates hfield).mpr
    exact ⟨starredTag, List.mem_singleton_self _, hreadable, .inr hstar⟩
  · rintro (hany | ⟨e, he, hquoted⟩)
    · exact Condition.noConfusion hany
    obtain rfl := List.mem_singleton.mp he
    obtain ⟨tag, -, htag, hcomma⟩ := exists_entityTag source t
    rw [← htag, EntityTag.quoted, EntityTag.quoted] at hquoted
    have hinner := List.append_cancel_right (List.cons.inj hquoted).2
    exact absurd (hinner ▸ hcomma) (by decide +kernel)

/-- A validator is not found in a line with a byte beyond ASCII. -/
lemma covers_accentedLine (source : Bytes) (t : Image.Transform) :
    ∃ c : Condition, c.Written (Http.Fields.combined "if-none-match" (accentedLine source t)) ∧
      covers (accentedLine source t) (calculate source t) = false ∧
      c.Covers (Utf8.encode (calculate source t)) := by
  obtain ⟨tag, hstrong, htag, -⟩ := exists_entityTag source t
  have hline : Enumerates (accentedTag.bytes ++ 0x2C :: Utf8.encode (calculate source t))
      [accentedTag, tag] := by
    have hbytes : tag.bytes = Utf8.encode (calculate source t) := by
      simp [EntityTag.bytes, EntityTag.mark, hstrong, htag]
    have hjoin := enumerates_join (List.cons_ne_nil accentedTag [tag])
    rwa [List.map_cons, Text.join_cons, List.map_singleton, List.flatMap_singleton, hbytes] at hjoin
  refine ⟨.oneOf [accentedTag, tag], .oneOf hline, ?_, .inr ⟨tag, by simp [Condition.tags], htag⟩⟩
  rw [← Bool.not_eq_true, covers_calculate_iff]
  rintro ⟨v, hv, hvisible, -⟩
  obtain rfl := List.mem_singleton.mp hv
  exact absurd (hvisible 0xE9 (List.mem_append_left _ (by decide +kernel))) (by decide +kernel)

/-- There are fields that are misread: one whose only tag is not the validator, which the reader takes for
all copies, and one that lists the validator, which the reader skips. -/
theorem exists_misread :
    ((Condition.oneOf [starredTag]).Written (Http.Fields.combined "if-none-match" starredLine) ∧
      covers starredLine (calculate [] .standard) = true ∧
      ¬ (Condition.oneOf [starredTag]).Covers (Utf8.encode (calculate [] .standard))) ∧
    ∃ c : Condition,
      c.Written (Http.Fields.combined "if-none-match" (accentedLine [] .standard)) ∧
      covers (accentedLine [] .standard) (calculate [] .standard) = false ∧
      c.Covers (Utf8.encode (calculate [] .standard)) :=
  ⟨covers_starredLine [] .standard, covers_accentedLine [] .standard⟩

end Validator

end Gateway
