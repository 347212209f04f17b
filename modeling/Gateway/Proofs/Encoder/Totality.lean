import Mathlib
import Gateway.Proofs.Config.Accepted
import Gateway.Proofs.Encoder.Body
import Gateway.Proofs.Encoder.Disposition
import Gateway.Proofs.Encoder.Validator
import Gateway.Proofs.Http.Date

/-!
# Responses that are always made

Once an image has been processed, the response with it is made, whatever the request and the source are
(`Encoder.complete_of_accepted`). It could fail in two ways. A value could have a byte that no field may
have, but none of the texts has a control (`Encoder.Writable`): a date is made of names, numerals and
marks, a validator of digits between quotes, and from a download name the controls have been left out. And
the image could be kept until after the last date that there is, but an accepted configuration has no
lifetime of more than ten years.
-/

namespace Gateway

namespace Encoder

open Disposition (isControl)

variable {e : Encoder} {pool : BufferPool} {now seconds : Nat} {request : Http.Fields}
  {t : Image.Transform} {source : String} {tag : Option (List Char)} {data : Bytes}
  {gzip : Nat → Bytes → Bytes} {s s' : List Char}

/-! ## Texts without controls -/

/-- Whether a text has no control, so that it can be written as a field value. -/
def Writable (s : List Char) : Prop := ∀ c ∈ s, isControl c = false

lemma Writable.append (h : Writable s) (h' : Writable s') : Writable (s ++ s') :=
  List.forall_mem_append.mpr ⟨h, h'⟩

lemma Writable.fieldValue (h : Writable s) : fieldValue s = .ok (Utf8.encode s) := by
  unfold Encoder.fieldValue
  simp only [Disposition.isValue_encode h, if_true]

/-- A text of printable ASCII is writable. -/
lemma writable_of_printable (h : ∀ c ∈ s, 0x20 ≤ c.toNat ∧ c.toNat < 0x7F) : Writable s := by
  intro c hc
  obtain ⟨hlow, hhigh⟩ := h c hc
  simp only [isControl, Bool.or_eq_false_iff, Bool.and_eq_false_iff, decide_eq_false_iff_not]
  omega

lemma writable_of_digits (h : ∀ c ∈ s, c.isDigit = true) : Writable s := by
  refine writable_of_printable fun c hc => ?_
  have hdigit := h c hc
  simp only [Char.isDigit, Bool.and_eq_true, decide_eq_true_eq, UInt32.le_iff_toNat_le] at hdigit
  have hrange : 0x30 ≤ c.toNat ∧ c.toNat ≤ 0x39 := hdigit
  omega

lemma writable_calculate (source : Bytes) (t : Image.Transform) :
    Writable (Validator.calculate source t) := by
  refine writable_of_printable fun c hc => ?_
  obtain ⟨⟨hlow, hhigh⟩, -⟩ := Validator.isMark_calculate hc
  omega

/-- The names of days and months are writable, and so are the words and marks between other parts. -/
lemma writable_of_mem_words : ∀ word ∈ Http.Date.dayNames ++ Http.Date.monthNames ++
    [", ", " ", ":", " GMT", "max-age=", ", public"], Writable word.toList := by
  simp [Http.Date.dayNames, Http.Date.monthNames, Writable, isControl]

/-- The date of an instant is writable. -/
lemma writable_of_isDateOf (h : Http.Date.IsDateOf s seconds) : Writable s := by
  obtain ⟨-, -, -, -, -, hweekday, hmonth, hdd, hyyyy, hhh, hmm, hss⟩ := h
  have hday := writable_of_mem_words _ (List.mem_append_left _
    (List.mem_append_left _ (List.mem_of_getElem? hweekday)))
  have hname := writable_of_mem_words _ (List.mem_append_left _
    (List.mem_append_right _ (List.mem_of_getElem? hmonth)))
  have hcomma := writable_of_mem_words ", " (by simp)
  have hblank := writable_of_mem_words " " (by simp)
  have hcolon := writable_of_mem_words ":" (by simp)
  have hzone := writable_of_mem_words " GMT" (by simp)
  have hdate := ((((hday.append hcomma).append (writable_of_digits hdd.digits)).append hblank).append
    hname).append hblank |>.append (writable_of_digits hyyyy.digits)
  have hclock := ((writable_of_digits hhh.digits).append hcolon).append
    (writable_of_digits hmm.digits) |>.append hcolon |>.append (writable_of_digits hss.digits)
  simpa only [List.append_assoc] using (hdate.append hblank).append (hclock.append hzone)

lemma writable_cacheControl (e : Encoder) : Writable e.cacheControl :=
  ((writable_of_mem_words "max-age=" (by simp)).append
    (writable_of_digits fun _ => Text.isDigit_of_mem_decimal)).append
    (writable_of_mem_words ", public" (by simp))

/-! ## The fields of an image -/

/-- The fields that describe an image, if its expiry has a date and its validator can be written. -/
lemma exists_describe_eq (t : Image.Transform) (source : String)
    (hexpiry : now + e.ttlSecs ≤ Http.Date.last) (htag : ∀ s ∈ tag, Writable s) :
    ∃ date, Http.Date.IsDateOf date (now + e.ttlSecs) ∧
      e.describe now t source tag = .ok (
        [("expires", Utf8.encode date), ("cache-control", Utf8.encode e.cacheControl),
          ("content-type", Utf8.ofString t.format.mediaType),
          ("content-disposition", Utf8.encode (Disposition.value source t.format))] ++
        tag.toList.map fun s => ("etag", Utf8.encode s)) := by
  have hdate := Http.Date.isDateOf_text hexpiry
  have hexpires : e.expires now =
      .ok (Utf8.encode (Http.Date.text (now + e.ttlSecs)).toList) := by
    rw [expires, if_pos hexpiry]
    exact (writable_of_isDateOf hdate).fieldValue
  have hdisposition : fieldValue (Disposition.value source t.format) =
      .ok (Utf8.encode (Disposition.value source t.format)) :=
    Writable.fieldValue fun _ => Disposition.isControl_of_mem_value
  have hvalidator : validatorField tag = .ok (tag.toList.map fun s => ("etag", Utf8.encode s)) := by
    cases tag with
    | none => rfl
    | some s =>
      rw [validatorField, (htag s rfl).fieldValue]
      rfl
  refine ⟨_, hdate, ?_⟩
  simp only [describe, hexpires, (writable_cacheControl e).fieldValue, hdisposition, hvalidator]
  rfl

/-- A media type is a legal value, and so is the name of the compression. -/
lemma isValue_mediaType (f : Image.Format) : Http.isValue (Utf8.ofString f.mediaType) = true := by
  cases f <;> decide +kernel

/-- The fields of an encoded body only tell the compression. -/
lemma mem_encodingField_of_encodeBody {f : String × Bytes}
    (hf : f ∈ (e.encodeBody pool request data gzip).1.1) : f ∈ encodingField := by
  unfold encodeBody at hf
  split at hf
  · exact hf
  · exact absurd hf List.not_mem_nil

/-- What can be said of a response with an image that is encoded at an instant and may be kept for a
time. -/
structure Complete (ttlSecs now : Nat) (r : Http.Response) : Prop where
  status : r.status = .ok
  expires : ∃ date, Http.Date.IsDateOf date (now + ttlSecs) ∧
    Http.Fields.values "expires" r.fields = [Utf8.encode date]
  lifetime : Http.Fields.values "cache-control" r.fields =
    [Utf8.ofString ("max-age=" ++ toString ttlSecs ++ ", public")]
  /-- All values are legal. -/
  legal : ∀ f ∈ r.fields, Http.isValue f.2 = true

/-- All that is told of an image besides its expiry. -/
def otherFields (e : Encoder) (pool : BufferPool) (request : Http.Fields) (t : Image.Transform)
    (source : String) (tag : Option (List Char)) (data : Bytes) (gzip : Nat → Bytes → Bytes) :
    Http.Fields :=
  [("cache-control", Utf8.encode e.cacheControl),
    ("content-type", Utf8.ofString t.format.mediaType),
    ("content-disposition", Utf8.encode (Disposition.value source t.format))] ++
  (tag.toList.map fun s => ("etag", Utf8.encode s)) ++
  (e.encodeBody pool request data gzip).1.1 ++
  [("content-length", Http.Response.numeral (e.encodeBody pool request data gzip).1.2.length)]

/-- The other fields have legal values and other names. -/
lemma legal_otherFields (htag : ∀ s ∈ tag, Writable s) :
    ∀ f ∈ e.otherFields pool request t source tag data gzip,
      Http.isValue f.2 = true ∧ f.1 ≠ "expires" := by
  have hlength : Http.isValue (Http.Response.numeral
      (e.encodeBody pool request data gzip).1.2.length) = true :=
    Disposition.isValue_encode (writable_of_digits fun _ => Text.isDigit_of_mem_decimal)
  have hcache : Http.isValue (Utf8.encode e.cacheControl) = true :=
    Disposition.isValue_encode (writable_cacheControl e)
  have hdisposition : Http.isValue (Utf8.encode (Disposition.value source t.format)) = true :=
    Disposition.isValue_encode fun _ => Disposition.isControl_of_mem_value
  have hencoding : ∀ f ∈ encodingField, Http.isValue f.2 = true ∧ f.1 ≠ "expires" := by
    decide +kernel
  intro f hf
  rcases List.mem_append.mp hf with hf | hf
  · rcases List.mem_append.mp hf with hf | hf
    · rcases List.mem_append.mp hf with hf | hf
      · simp only [List.mem_cons, List.not_mem_nil, or_false] at hf
        rcases hf with rfl | rfl | rfl
        · exact ⟨hcache, (by decide : "cache-control" ≠ "expires")⟩
        · exact ⟨isValue_mediaType t.format, (by decide : "content-type" ≠ "expires")⟩
        · exact ⟨hdisposition, (by decide : "content-disposition" ≠ "expires")⟩
      · obtain ⟨s, hs, rfl⟩ := List.mem_map.mp hf
        have hvalidator : Http.isValue (Utf8.encode s) = true :=
          Disposition.isValue_encode (htag s (Option.mem_toList.mp hs))
        exact ⟨hvalidator, (by decide : "etag" ≠ "expires")⟩
    · exact hencoding f (mem_encodingField_of_encodeBody hf)
  · obtain rfl := List.mem_singleton.mp hf
    exact ⟨hlength, (by decide : "content-length" ≠ "expires")⟩

/-- If its expiry has a date and its validator can be written, the response is made. -/
lemma complete_of_expires (hexpiry : now + e.ttlSecs ≤ Http.Date.last)
    (htag : ∀ s ∈ tag, Writable s) :
    ∃ r, (e.image pool now request t source tag data gzip).1 = .ok r ∧
      Complete e.ttlSecs now r := by
  obtain ⟨date, hdate, hdescribe⟩ := exists_describe_eq t source hexpiry htag
  obtain ⟨r, himage, hfields⟩ : ∃ r, (e.image pool now request t source tag data gzip).1 = .ok r ∧
      r.fields = ("expires", Utf8.encode date) ::
        e.otherFields pool request t source tag data gzip := by
    rw [image, hdescribe]
    exact ⟨_, rfl, rfl⟩
  have hothers : ∀ f ∈ e.otherFields pool request t source tag data gzip,
      Http.isValue f.2 = true ∧ f.1 ≠ "expires" := legal_otherFields htag
  refine ⟨r, himage, status_of_image himage, ⟨date, hdate, ?_⟩, ?_, ?_⟩
  · rw [hfields, Http.Fields.values_cons_self,
      Http.Fields.values_eq_nil fun f hf => (hothers f hf).2]
  · rw [(values_of_image himage).2.1, encode_cacheControl]
  · rw [hfields]
    exact List.forall_mem_cons.mpr
      ⟨Disposition.isValue_encode (writable_of_isDateOf hdate), fun f hf => (hothers f hf).1⟩

/-- With an accepted configuration the response with an image is made, up to ten years before the last
date, whatever the request, the source and the image are. -/
theorem complete_of_accepted {c : Config} (haccepted : c.Accepted)
    (hnow : now + Config.maxTtlSecs ≤ Http.Date.last)
    (htag : ∀ s ∈ tag, ∃ source t, s = Validator.calculate source t) (pool : BufferPool)
    (request : Http.Fields) (t : Image.Transform) (source : String) (data : Bytes)
    (gzip : Nat → Bytes → Bytes) :
    ∃ r, ((ofConfig c.response).image pool now request t source tag data gzip).1 = .ok r ∧
      Complete c.response.ttlSecs now r := by
  have httl := (Config.inRange_of_accepted haccepted).ttlSecs_le
  refine complete_of_expires (e := ofConfig c.response) ?_ ?_
  · exact (Nat.add_le_add_left httl now).trans hnow
  · intro s hs
    obtain ⟨source, t, rfl⟩ := htag s hs
    exact writable_calculate source t

/-- The response with an image of an address that cannot be read, for a client that mentions gzip. -/
theorem complete_of_standard : (Config.standard 1).Accepted ∧
    1700000000 + Config.maxTtlSecs ≤ Http.Date.last ∧
    ∃ r, ((ofConfig (Config.standard 1).response).image freshPool 1700000000
        (gzipCall []).request .standard "a \"b\r\n" (some (Validator.calculate [] .standard)) [1, 2]
        Gzip.compress).1 = .ok r ∧
      Complete (Config.standard 1).response.ttlSecs 1700000000 r := by
  have haccepted : (Config.standard 1).Accepted := .inl rfl
  have hnow : 1700000000 + Config.maxTtlSecs ≤ Http.Date.last := by decide
  have htag : ∀ s ∈ some (Validator.calculate [] .standard),
      ∃ source t, s = Validator.calculate source t := by
    intro s hs
    exact ⟨[], .standard, (Option.some.inj hs).symm⟩
  exact ⟨haccepted, hnow, complete_of_accepted haccepted hnow htag freshPool (gzipCall []).request
    .standard "a \"b\r\n" [1, 2] Gzip.compress⟩

end Encoder

end Gateway
