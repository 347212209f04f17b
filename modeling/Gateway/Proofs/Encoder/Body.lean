import Mathlib
import Gateway.Proofs.BufferPool.Circulation
import Gateway.Proofs.Encoder.Compression
import Gateway.Proofs.Http.Value
import Gateway.Proofs.Stage.Work

/-!
# The body of a response

What a client is sent of an image only depends on the image, on the encoder and on whether the client
mentions gzip: the image itself, or a compressed form of it which the field for that names, with the
length of what is sent (`Encoder.Exact`).

Compressed bodies are made in buffers that are used again, so that a body could in principle carry
something of an earlier one. It does not: however many images have been encoded before, the pool only
holds empty buffers (`BufferPool.Tidy`, kept by every single call and therefore by any number of them),
and the response is the one that a fresh encoder gives (`Encoder.exact_of_history`). The compression
stands for itself here: any one will do, together with a reader for what it makes.
-/

namespace Gateway

namespace Encoder

/-! ## What a client accepts -/

/-- Whether a client mentions gzip in a value that is made of visible ASCII, blanks and tabs. -/
def MentionsGzip (fs : Http.Fields) : Prop :=
  ∃ v ∈ Http.Fields.values "accept-encoding" fs, Http.IsVisible v ∧ Utf8.ofString "gzip" <:+: v

/-- The encoder compresses for the clients that mention it. -/
lemma acceptsGzip_iff {fs : Http.Fields} : acceptsGzip fs = true ↔ MentionsGzip fs := by
  have hneedle : ['g', 'z', 'i', 'p'] = (Utf8.ofString "gzip").map Http.charOf := by decide +kernel
  rw [acceptsGzip, List.any_eq_true]
  constructor
  · rintro ⟨s, hs, hoccurs⟩
    obtain ⟨v, hv, hread⟩ := List.mem_filterMap.mp hs
    obtain ⟨hvisible, rfl⟩ := Http.visible?_eq_some_iff.mp hread
    rw [Text.occursIn_iff, hneedle, Text.map_infix_map_iff Http.charOf_injective] at hoccurs
    exact ⟨v, hv, hvisible, hoccurs⟩
  · rintro ⟨v, hv, hvisible, hinfix⟩
    refine ⟨v.map Http.charOf, ?_, ?_⟩
    · exact List.mem_filterMap.mpr ⟨v, hv, Http.visible?_eq_some_iff.mpr ⟨hvisible, rfl⟩⟩
    · rwa [Text.occursIn_iff, hneedle, Text.map_infix_map_iff Http.charOf_injective]

/-! ## The fields of a response -/

variable {e : Encoder} {pool : BufferPool} {now : Nat} {request : Http.Fields}
  {t : Image.Transform} {source : String} {tag : Option (List Char)} {data : Bytes}
  {gzip : Nat → Bytes → Bytes} {r : Http.Response}

/-- A text that can be written as a field value is written as its bytes. -/
lemma eq_of_fieldValue {s : List Char} {v : Bytes} (h : fieldValue s = .ok v) :
    v = Utf8.encode s := by
  unfold fieldValue at h
  simp only at h
  split at h
  · exact (Except.ok.inj h).symm
  · cases h

/-- If there is a validator and it can be written, the field with it. -/
lemma eq_of_validatorField {fields : Http.Fields} (h : validatorField tag = .ok fields) :
    fields = tag.toList.map fun s => ("etag", Utf8.encode s) := by
  cases tag with
  | none => exact (Except.ok.inj h).symm
  | some s =>
    rcases hvalue : fieldValue s with f | v <;> rw [validatorField, hvalue] at h
    · cases h
    · obtain rfl := Except.ok.inj h
      rw [eq_of_fieldValue hvalue]
      rfl

/-- What a computation that succeeds has computed on the way. -/
lemma bind_eq_ok {α β : Type} {x : Except Failure α} {f : α → Except Failure β} {b : β}
    (h : (x >>= f) = .ok b) : ∃ a, x = .ok a ∧ f a = .ok b := by
  cases x with
  | error failure => cases h
  | ok a => exact ⟨a, rfl, h⟩

/-- The fields that describe an image. -/
lemma eq_of_describe {fields : Http.Fields} (h : e.describe now t source tag = .ok fields) :
    ∃ expires disposition, fields =
      [("expires", expires), ("cache-control", Utf8.encode e.cacheControl),
        ("content-type", Utf8.ofString t.format.mediaType), ("content-disposition", disposition)] ++
      tag.toList.map fun s => ("etag", Utf8.encode s) := by
  obtain ⟨expires, -, h⟩ := bind_eq_ok h
  obtain ⟨cacheControl, hcache, h⟩ := bind_eq_ok h
  obtain ⟨disposition, -, h⟩ := bind_eq_ok h
  obtain ⟨validator, hvalidator, h⟩ := bind_eq_ok h
  obtain rfl := Except.ok.inj h
  rw [eq_of_fieldValue hcache, eq_of_validatorField hvalidator]
  exact ⟨expires, disposition, rfl⟩

/-- Numerals are the usual ones. -/
lemma decimal_eq (n : Nat) : Text.decimal n = (toString n).toList :=
  String.toList_ofList.symm

lemma numeral_eq (n : Nat) : Http.Response.numeral n = Utf8.ofString (toString n) := by
  rw [Http.Response.numeral, Utf8.ofString, decimal_eq]

lemma encode_cacheControl (e : Encoder) : Utf8.encode e.cacheControl =
    Utf8.ofString ("max-age=" ++ toString e.ttlSecs ++ ", public") := by
  rw [Utf8.ofString, String.toList_append, String.toList_append]
  unfold cacheControl
  congr 3
  exact decimal_eq e.ttlSecs

/-- A client that mentions gzip is sent the compressed image, if the encoder compresses at all. -/
lemma encodeBody_of_mentions (hlevel : 0 < e.gzipLevel) (hmentions : MentionsGzip request) :
    (e.encodeBody pool request data gzip).1 = (encodingField, gzip e.gzipLevel data) := by
  have htest : (e.compresses && acceptsGzip request) = true := by
    rw [Bool.and_eq_true, acceptsGzip_iff]
    exact ⟨decide_eq_true hlevel, hmentions⟩
  rw [encodeBody, if_pos htest]
  simp only [compressIn_fst]

/-- Any other client is sent the image itself. -/
lemma encodeBody_of_not (h : ¬ (0 < e.gzipLevel ∧ MentionsGzip request)) :
    (e.encodeBody pool request data gzip).1 = ([], data) := by
  have htest : ¬ (e.compresses && acceptsGzip request) = true := by
    rw [Bool.and_eq_true, acceptsGzip_iff]
    exact fun hboth => h ⟨of_decide_eq_true hboth.1, hboth.2⟩
  rw [encodeBody, if_neg htest]

/-- What a response with an image consists of: the fields that describe the image, the field for the
compression, the length and the body. -/
lemma eq_of_image (h : (e.image pool now request t source tag data gzip).1 = .ok r) :
    ∃ expires disposition, r = ⟨.ok,
      [("expires", expires), ("cache-control", Utf8.encode e.cacheControl),
        ("content-type", Utf8.ofString t.format.mediaType), ("content-disposition", disposition)] ++
      (tag.toList.map fun s => ("etag", Utf8.encode s)) ++
      (e.encodeBody pool request data gzip).1.1 ++
      [("content-length",
        Utf8.ofString (toString (e.encodeBody pool request data gzip).1.2.length))],
      (e.encodeBody pool request data gzip).1.2⟩ := by
  unfold image at h
  split at h
  · cases h
  · next fields hdescribe =>
    obtain ⟨expires, disposition, rfl⟩ := eq_of_describe hdescribe
    obtain rfl := Except.ok.inj h
    refine ⟨expires, disposition, ?_⟩
    rw [← numeral_eq]

/-- What the fields of a response with an image tell. -/
lemma values_of_image (h : (e.image pool now request t source tag data gzip).1 = .ok r) :
    Http.Fields.values "etag" r.fields = tag.toList.map Utf8.encode ∧
    Http.Fields.values "cache-control" r.fields = [Utf8.encode e.cacheControl] ∧
    Http.Fields.values "content-length" r.fields = [Utf8.ofString (toString r.body.length)] ∧
    Http.Fields.values "content-encoding" r.fields =
      (e.encodeBody pool request data gzip).1.1.map Prod.snd := by
  have hencoding : (e.encodeBody pool request data gzip).1.1 = [] ∨
      (e.encodeBody pool request data gzip).1.1 = encodingField := by
    by_cases hsends : 0 < e.gzipLevel ∧ MentionsGzip request
    · rw [encodeBody_of_mentions hsends.1 hsends.2]
      exact .inr rfl
    · rw [encodeBody_of_not hsends]
      exact .inl rfl
  obtain ⟨expires, disposition, rfl⟩ := eq_of_image h
  rcases hencoding with hencoding | hencoding <;> rw [hencoding] <;> cases tag <;>
    simp [Http.Fields.values, encodingField]

/-- A client that mentions gzip is sent the compressed image, which is told, and any other client the
image itself. -/
lemma sent_of_image (h : (e.image pool now request t source tag data gzip).1 = .ok r) :
    (0 < e.gzipLevel ∧ MentionsGzip request →
      Http.Fields.values "content-encoding" r.fields = [Utf8.ofString "gzip"] ∧
        r.body = gzip e.gzipLevel data) ∧
    (¬ (0 < e.gzipLevel ∧ MentionsGzip request) →
      Http.Fields.values "content-encoding" r.fields = [] ∧ r.body = data) := by
  obtain ⟨-, -, -, htold⟩ := values_of_image h
  obtain ⟨expires, disposition, rfl⟩ := eq_of_image h
  rw [htold]
  constructor
  · intro hsends
    rw [encodeBody_of_mentions hsends.1 hsends.2]
    exact ⟨rfl, rfl⟩
  · intro hplain
    rw [encodeBody_of_not hplain]
    exact ⟨rfl, rfl⟩

/-! ## Exact responses -/

/-- What can be said of a response with an image, for a client that sent the given fields. -/
structure Exact (e : Encoder) (gunzip? : Bytes → Option Bytes) (request : Http.Fields)
    (data : Bytes) (r : Http.Response) : Prop where
  status : r.status = .ok
  /-- A client that mentions gzip is sent a compressed form of the image, if compression is on. -/
  compressed : 0 < e.gzipLevel ∧ MentionsGzip request →
    Http.Fields.values "content-encoding" r.fields = [Utf8.ofString "gzip"] ∧
      gunzip? r.body = some data
  /-- Any other client is sent the image itself. -/
  plain : ¬ (0 < e.gzipLevel ∧ MentionsGzip request) →
    Http.Fields.values "content-encoding" r.fields = [] ∧ r.body = data
  /-- The length that is told is the one of what is sent. -/
  length : Http.Fields.values "content-length" r.fields = [Utf8.ofString (toString r.body.length)]
  /-- How long the image may be kept is what has been configured. -/
  lifetime : Http.Fields.values "cache-control" r.fields =
    [Utf8.ofString ("max-age=" ++ toString e.ttlSecs ++ ", public")]

/-- Every response with an image is exact if what has been compressed can be read. -/
lemma exact_of_image {gunzip? : Bytes → Option Bytes}
    (hreads : 0 < e.gzipLevel → ∀ data, gunzip? (gzip e.gzipLevel data) = some data)
    (h : (e.image pool now request t source tag data gzip).1 = .ok r) :
    Exact e gunzip? request data r := by
  obtain ⟨hcompressed, hplain⟩ := sent_of_image h
  obtain ⟨-, hcache, hlength, -⟩ := values_of_image h
  constructor
  · exact status_of_image h
  · intro hsends
    obtain ⟨htold, hbody⟩ := hcompressed hsends
    rw [hbody, hreads hsends.1]
    exact ⟨htold, rfl⟩
  · exact hplain
  · exact hlength
  · rw [hcache, encode_cacheControl]

/-! ## Responses one after the other -/

/-- A call for a response with an image: when it is made, the fields that the client sent, and what is to
be encoded. -/
structure ImageCall where
  now : Nat
  request : Http.Fields
  transform : Image.Transform
  source : String
  tag : Option (List Char)
  data : Bytes

/-- What comes of a call, with the pool after it. -/
def answer (e : Encoder) (gzip : Nat → Bytes → Bytes) (pool : BufferPool) (call : ImageCall) :
    Except Failure Http.Response × BufferPool :=
  e.image pool call.now call.request call.transform call.source call.tag call.data gzip

/-- The pool of an encoder after a series of calls. -/
def poolAfter (e : Encoder) (gzip : Nat → Bytes → Bytes) (calls : List ImageCall) : BufferPool :=
  calls.foldl (fun pool call => (e.answer gzip pool call).2) freshPool

/-- Encoding a body leaves the pool tidy. -/
lemma tidy_encodeBody (hpool : pool.Tidy) : (e.encodeBody pool request data gzip).2.Tidy := by
  unfold encodeBody
  split
  · exact hpool.take.giveBack _
  · exact hpool

/-- A call leaves the pool tidy. -/
lemma tidy_answer (hpool : pool.Tidy) (call : ImageCall) : (e.answer gzip pool call).2.Tidy := by
  unfold answer image
  split
  · exact hpool
  · exact tidy_encodeBody hpool

/-- Any number of calls leave the pool tidy. -/
lemma tidy_poolAfter (calls : List ImageCall) : (e.poolAfter gzip calls).Tidy := by
  have hkept : ∀ pool : BufferPool, pool.Tidy →
      (calls.foldl (fun pool call => (e.answer gzip pool call).2) pool).Tidy := by
    induction calls with
    | nil => exact fun pool hpool => hpool
    | cons call calls ih => exact fun pool hpool => ih _ (tidy_answer hpool call)
  exact hkept freshPool (BufferPool.tidy_new pooledBuffers)

/-- Whatever has been encoded before, a call gives what it gives on a fresh encoder, and every response
is exact. The buffers that are left behind are empty. -/
theorem exact_of_history (e : Encoder) (gzip : Nat → Bytes → Bytes)
    (gunzip? : Bytes → Option Bytes)
    (hreads : 0 < e.gzipLevel → ∀ data, gunzip? (gzip e.gzipLevel data) = some data)
    (calls : List ImageCall) (call : ImageCall) :
    (e.answer gzip (e.poolAfter gzip calls) call).1 = (e.answer gzip freshPool call).1 ∧
      (e.poolAfter gzip calls).Tidy ∧
      ∀ r, (e.answer gzip (e.poolAfter gzip calls) call).1 = .ok r →
        Exact e gunzip? call.request call.data r := by
  refine ⟨?_, tidy_poolAfter calls, ?_⟩
  · exact image_fst e _ _ call.now call.request call.transform call.source call.tag call.data
  · intro r h
    exact exact_of_image hreads h

/-- A call of a client that mentions gzip. -/
def gzipCall (data : Bytes) : ImageCall where
  now := 0
  request := [("accept-encoding", Utf8.ofString "br, gzip")]
  transform := .standard
  source := "http://a/b.png"
  tag := none
  data := data

/-- A short image after a long one is sent alone, in the buffer that the long one has left behind. -/
theorem exact_after_long_body :
    let e : Encoder := ⟨3600, 6⟩
    (∀ data, Gzip.decompress? (Gzip.compress e.gzipLevel data) = some data) ∧
      (e.poolAfter Gzip.compress [gzipCall [1, 2, 3, 4]]).idle.length = 1 ∧
      ∃ r, (e.answer Gzip.compress (e.poolAfter Gzip.compress [gzipCall [1, 2, 3, 4]])
          (gzipCall [5])).1 = .ok r ∧
        Exact e Gzip.decompress? (gzipCall [5]).request [5] r := by
  intro e
  have hreads : ∀ data, Gzip.decompress? (Gzip.compress e.gzipLevel data) = some data :=
    Gzip.decompress?_compress e.gzipLevel
  obtain ⟨-, -, hexact⟩ := exact_of_history e Gzip.compress Gzip.decompress? (fun _ => hreads)
    [gzipCall [1, 2, 3, 4]] (gzipCall [5])
  have hanswers : (e.answer Gzip.compress (e.poolAfter Gzip.compress [gzipCall [1, 2, 3, 4]])
      (gzipCall [5])).1.isOk = true := by
    decide +kernel
  refine ⟨hreads, by decide +kernel, ?_⟩
  rcases hanswer : (e.answer Gzip.compress (e.poolAfter Gzip.compress [gzipCall [1, 2, 3, 4]])
      (gzipCall [5])).1 with f | r
  · rw [hanswer] at hanswers
    cases hanswers
  · exact ⟨r, rfl, hexact r hanswer⟩

end Encoder

end Gateway
