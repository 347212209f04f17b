import Mathlib
import Gateway.Encoder
import Gateway.Proofs.Http.Value
import Gateway.Validator

/-!
# Validators on their way to a client and back

A validator is sent as it is, since all of its characters are visible (`Validator.fieldValue_calculate`).
A client sends it back in a list, between any other members, with any blanks around it and perhaps marked
as weak (`Validator.Lists`), and every such list is recognised (`Validator.covers_of_lists`). A client that
sends no list is never taken to hold a copy (`Validator.covers_of_no_list`).
-/

namespace Gateway.Validator

/-! ## The characters of a validator -/

lemma isMark_digitChar : ∀ n < 16, (0x21 ≤ n.digitChar.toNat ∧ n.digitChar.toNat < 0x7F) ∧
    n.digitChar ≠ ',' := by
  decide

/-- A validator is made of visible characters, and it has no comma. -/
lemma isMark_calculate {source : Bytes} {t : Image.Transform} {digest : Bytes → Bytes} {c : Char}
    (hc : c ∈ calculate source t digest) : Http.IsMark c ∧ c ≠ ',' := by
  have hquote : Http.IsMark '"' ∧ '"' ≠ ',' := by
    unfold Http.IsMark
    decide
  simp only [calculate, List.mem_append, List.mem_singleton] at hc
  rcases hc with (rfl | hhex) | rfl
  · exact hquote
  · obtain ⟨b, -, hdigit⟩ := List.mem_flatMap.mp hhex
    have hbyte := b.toNat_lt
    rcases List.mem_cons.mp hdigit with rfl | hdigit
    · exact isMark_digitChar _ (by omega)
    · obtain rfl := List.mem_singleton.mp hdigit
      exact isMark_digitChar _ (by omega)
  · exact hquote

/-- A text of visible characters can be written as a field value. -/
lemma fieldValue_of_marks {s : List Char} (h : ∀ c ∈ s, Http.IsMark c) :
    Encoder.fieldValue s = .ok (Utf8.encode s) := by
  have hvalue := Http.isValue_of_isVisible (Http.isVisible_encode h)
  unfold Encoder.fieldValue
  simp only [hvalue, if_true]

lemma fieldValue_calculate (source : Bytes) (t : Image.Transform) :
    Encoder.fieldValue (calculate source t) = .ok (Utf8.encode (calculate source t)) :=
  fieldValue_of_marks fun _ hc => (isMark_calculate hc).1

/-- The answer to a client with a good copy has the validator as its only field, and no body. -/
lemma notModified_calculate (source : Bytes) (t : Image.Transform) :
    Encoder.notModified (calculate source t) =
      ⟨.notModified, [("etag", Utf8.encode (calculate source t))], []⟩ := by
  rw [Encoder.notModified, fieldValue_calculate]
  rfl

/-! ## Lists of validators -/

/-- Whether a value is a list, separated by commas, that has a validator as a member. The member may be
marked as weak and stand between blanks, and the other members can be anything that is visible. -/
def Lists (v e : Bytes) : Prop :=
  Http.IsVisible v ∧ ∃ before after left member right,
    v = Text.join [0x2C] (before ++ (left ++ member ++ right) :: after) ∧
      (∀ b ∈ left ++ right, b = 0x20 ∨ b = 9) ∧ (member = e ∨ member = Utf8.ofString "W/" ++ e)

section Lists

variable {fs : Http.Fields} {v : Bytes} {tag : List Char}

/-- A piece of a value that can be read is an item when the blanks around it are taken away. -/
lemma mem_items {piece : List Char} (hv : v ∈ Http.Fields.values "if-none-match" fs)
    (hvisible : Http.IsVisible v) (hpiece : piece ∈ Text.split ',' (v.map Http.charOf)) :
    Text.trimBy isBlank piece ∈ items fs := by
  have hread := Http.visible?_eq_some_iff.mpr ⟨hvisible, rfl⟩
  exact List.mem_flatMap.mpr ⟨_, List.mem_filterMap.mpr ⟨v, hv, hread⟩, List.mem_map_of_mem hpiece⟩

/-- A member without a comma is one of the pieces into which the list is cut. -/
lemma mem_split_join {member : Bytes} (before after : List Bytes)
    (hcomma : ',' ∉ member.map Http.charOf) :
    member.map Http.charOf ∈
      Text.split ',' ((Text.join [0x2C] (before ++ member :: after)).map Http.charOf) := by
  have hsep : ([0x2C] : Bytes).map Http.charOf = [','] := by decide
  rw [Text.map_join, hsep, List.map_append, List.map_cons, Text.split_join (by simp)]
  refine List.mem_flatMap.mpr ⟨member.map Http.charOf, by simp, ?_⟩
  rw [Text.split_of_not_mem hcomma]
  exact List.mem_singleton_self _

/-- Blanks and tabs are blank to the reader of a list, and they do not end a member. -/
lemma isBlank_of_blanks {bs : Bytes} (h : ∀ b ∈ bs, b = 0x20 ∨ b = 9) :
    ∀ c ∈ bs.map Http.charOf, isBlank c = true ∧ c ≠ ',' := by
  intro c hc
  obtain ⟨b, hb, rfl⟩ := List.mem_map.mp hc
  rcases h b hb with rfl | rfl
  · decide
  · decide

lemma isBlank_of_isMark {c : Char} (h : Http.IsMark c) : isBlank c = false := by
  have hspace : c ≠ ' ' := by
    rintro rfl
    exact absurd h.1 (by decide)
  have htab : c ≠ '\t' := by
    rintro rfl
    exact absurd h.1 (by decide)
  simp [isBlank, hspace, htab]

/-- A validator is recognised with and without the mark for weak validators. -/
lemma coveredBy_member (hweak : Text.afterStart ['W', '/'] tag = none) :
    coveredBy tag tag = true ∧ coveredBy tag (['W', '/'] ++ tag) = true := by
  constructor
  · rw [coveredBy, hweak]
    simp
  · simp [coveredBy, Text.afterStart]

/-- What is read of a member: it is recognised, and it is not empty and made of visible characters. -/
lemma read_member {member : Bytes} (hmarks : ∀ c ∈ tag, Http.IsMark c ∧ c ≠ ',')
    (hnonempty : tag ≠ []) (hweak : Text.afterStart ['W', '/'] tag = none)
    (hmember : member = Utf8.encode tag ∨ member = Utf8.ofString "W/" ++ Utf8.encode tag) :
    coveredBy tag (member.map Http.charOf) = true ∧ member.map Http.charOf ≠ [] ∧
      ∀ c ∈ member.map Http.charOf, Http.IsMark c ∧ c ≠ ',' := by
  obtain ⟨hplain, hmarked⟩ := coveredBy_member hweak
  have hread := Http.map_charOf_encode fun c hc => (hmarks c hc).1
  rcases hmember with rfl | rfl
  · rw [hread]
    exact ⟨hplain, hnonempty, hmarks⟩
  · have hmark : (Utf8.ofString "W/").map Http.charOf = ['W', '/'] := by decide +kernel
    have hvisible : ∀ c ∈ ['W', '/'], Http.IsMark c ∧ c ≠ ',' := by
      unfold Http.IsMark
      intro c hc
      rcases List.mem_pair.mp hc with rfl | rfl
      · decide
      · decide
    rw [List.map_append, hread, hmark]
    refine ⟨hmarked, List.cons_ne_nil _ _, fun c hc => ?_⟩
    exact (List.mem_append.mp hc).elim (hvisible c) (hmarks c)

/-- A text of visible characters without a comma is recognised in every list that has it as a member. -/
lemma covers_of_marks (hmarks : ∀ c ∈ tag, Http.IsMark c ∧ c ≠ ',') (hnonempty : tag ≠ [])
    (hweak : Text.afterStart ['W', '/'] tag = none)
    (hv : v ∈ Http.Fields.values "if-none-match" fs) (hlists : Lists v (Utf8.encode tag)) :
    covers fs tag = true := by
  obtain ⟨hvisible, before, after, left, member, right, rfl, hblank, hmember⟩ := hlists
  obtain ⟨hcovered, hsome, hread⟩ := read_member hmarks hnonempty hweak hmember
  have hleft := isBlank_of_blanks fun b hb => hblank b (List.mem_append_left right hb)
  have hright := isBlank_of_blanks fun b hb => hblank b (List.mem_append_right left hb)
  have hcomma : ',' ∉ (left ++ member ++ right).map Http.charOf := by
    intro hmem
    rw [List.map_append, List.map_append, List.mem_append, List.mem_append] at hmem
    rcases hmem with (hmem | hmem) | hmem
    · exact (hleft ',' hmem).2 rfl
    · exact (hread ',' hmem).2 rfl
    · exact (hright ',' hmem).2 rfl
  have hitem := mem_items hv hvisible (mem_split_join before after hcomma)
  rw [List.map_append, List.map_append, Text.trimBy_pad (fun c hc => (hleft c hc).1)
    (fun c hc => (hright c hc).1) hsome
    (isBlank_of_isMark (hread _ (List.head_mem hsome)).1)
    (isBlank_of_isMark (hread _ (List.getLast_mem hsome)).1)] at hitem
  exact List.any_eq_true.mpr ⟨_, hitem, hcovered⟩

end Lists

/-- A client that lists a validator holds a good copy. -/
theorem covers_of_lists {fs : Http.Fields} {v : Bytes} {source : Bytes} {t : Image.Transform}
    (hv : v ∈ Http.Fields.values "if-none-match" fs)
    (hlists : Lists v (Utf8.encode (calculate source t))) :
    covers fs (calculate source t) = true := by
  apply covers_of_marks (fun _ hc => isMark_calculate hc) (List.cons_ne_nil _ _) _ hv hlists
  -- a validator begins with a quote
  rfl

/-- A client that sends no list holds no copy. -/
lemma covers_of_no_list {fs : Http.Fields} {tag : List Char}
    (h : Http.Fields.values "if-none-match" fs = []) : covers fs tag = false := by
  rw [covers, items, h]
  rfl

end Gateway.Validator
