import Mathlib
import Gateway.Proofs.Encoder.Compression
import Gateway.Proofs.Run.Success

/-!
# What a validator stands for

A validator is calculated from the source and the transformation, while the form in which an image is sent
also depends on what the client accepts. So two responses with the same validator that have been made of
the same image have the same form exactly if nothing is compressed, or if both clients mention gzip or
neither of them does (`Run.representation_eq_iff`). Otherwise one validator stands for two different bodies
(`Run.exists_two_representations`). In every case the client can read the image out of what it is sent. The
compression stands for itself here: any one will do, together with a reader for what it makes.
-/

namespace Gateway

namespace Http.Response

/-- The form in which a response carries its content: the encodings that are told, and the body. -/
def representation (r : Response) : List Bytes × Bytes :=
  (Fields.values "content-encoding" r.fields, r.body)

/-- The content of a response, for a client that knows no encoding but gzip, and how to read that. -/
def content? (r : Response) (gunzip? : Bytes → Option Bytes) : Option Bytes :=
  match r.representation with
  | ([], body) => some body
  | ([encoding], body) => if encoding = Utf8.ofString "gzip" then gunzip? body else none
  | _ => none

/-- A body that is not encoded is the content. -/
lemma content?_of_plain {r : Response} {data : Bytes} (h : r.representation = ([], data))
    (gunzip? : Bytes → Option Bytes) : r.content? gunzip? = some data := by
  rw [content?, h]

/-- The content of a compressed body is what is read of it. -/
lemma content?_of_compressed {r : Response} {body : Bytes}
    (h : r.representation = ([Utf8.ofString "gzip"], body)) (gunzip? : Bytes → Option Bytes) :
    r.content? gunzip? = gunzip? body := by
  rw [content?, h]
  exact if_pos rfl

end Http.Response

namespace Task.Served

variable {s : Service} {budget finish grant got : Nat} {t : Task} {resp r : Http.Response}
  {e source data : Bytes} {parsed : Parsed}

/-- An image is compressed for a client that mentions gzip, if images are compressed at all. -/
lemma representation_of_mentions
    (h : Served s budget t finish resp e grant parsed source got data r)
    (hlevel : 0 < s.encoder.gzipLevel)
    (hmentions : Encoder.MentionsGzip t.job.request.fields) :
    resp.representation = ([Utf8.ofString "gzip"], s.gzip s.encoder.gzipLevel data) := by
  obtain ⟨hcompressed, -⟩ := Encoder.sent_of_image h.serves.image
  obtain ⟨htold, hbody⟩ := hcompressed ⟨hlevel, hmentions⟩
  rw [h.response, Http.Response.representation, Http.Fields.values_apply _ (by decide) (by decide),
    htold, hbody]

/-- An image is sent as it is to any other client. -/
lemma representation_of_not (h : Served s budget t finish resp e grant parsed source got data r)
    (hnot : ¬ (0 < s.encoder.gzipLevel ∧ Encoder.MentionsGzip t.job.request.fields)) :
    resp.representation = ([], data) := by
  obtain ⟨-, hplain⟩ := Encoder.sent_of_image h.serves.image
  obtain ⟨htold, hbody⟩ := hplain hnot
  rw [h.response, Http.Response.representation, Http.Fields.values_apply _ (by decide) (by decide),
    htold, hbody]

/-- The client can read the image out of what it is sent, if what has been compressed can be read. -/
lemma content? (h : Served s budget t finish resp e grant parsed source got data r)
    {gunzip? : Bytes → Option Bytes} (hreads : 0 < s.encoder.gzipLevel →
      ∀ data, gunzip? (s.gzip s.encoder.gzipLevel data) = some data) :
    resp.content? gunzip? = some data := by
  by_cases hsends : 0 < s.encoder.gzipLevel ∧ Encoder.MentionsGzip t.job.request.fields
  · have hsent := h.representation_of_mentions hsends.1 hsends.2
    rw [Http.Response.content?_of_compressed hsent, hreads hsends.1]
  · exact Http.Response.content?_of_plain (h.representation_of_not hsends) gunzip?

end Task.Served

namespace Run

/-- Two responses with one validator that are made of the same image have the same form exactly if nothing
is compressed, or if both clients mention gzip or neither does; and in any case both have the image as
their content, with any compression and any reader of what it makes. -/
theorem representation_eq_iff {c : Config} {epoch : Nat} {gzip : Nat → Bytes → Bytes}
    (gunzip? : Bytes → Option Bytes) (hreads : 0 < c.response.gzipLevel →
      ∀ data, gunzip? (gzip c.response.gzipLevel data) = some data)
    {jobs jobs' : List Job} {r r' : Run} (hreach : Reachable (.ofConfig c epoch gzip) jobs r)
    (hreach' : Reachable (.ofConfig c epoch gzip) jobs' r') {t u : Task} (ht : t ∈ r.tasks)
    (hu : u ∈ r'.tasks) {finish finish' : Nat} {resp resp' : Http.Response} {e data : Bytes}
    (ho : t.outcome? = some (.response finish resp))
    (ho' : u.outcome? = some (.response finish' resp')) (hok : resp.status = .ok)
    (hok' : resp'.status = .ok) (he : ("etag", e) ∈ resp.fields) (he' : ("etag", e) ∈ resp'.fields)
    (hdata : t.job.processed? = some data) (hdata' : u.job.processed? = some data) :
    (resp.representation = resp'.representation ↔ c.response.gzipLevel = 0 ∨
      (Encoder.MentionsGzip t.job.request.fields ↔ Encoder.MentionsGzip u.job.request.fields)) ∧
    resp.content? gunzip? = some data ∧ resp'.content? gunzip? = some data := by
  have hlimit : (Service.ofConfig c epoch gzip).writeTimeout = .ofMillis c.budget :=
    Service.writeTimeout_ofConfig c epoch
  obtain ⟨last, -, hcourse⟩ := hreach.sound.course t ht
  obtain ⟨last', -, hcourse'⟩ := hreach'.sound.course u hu
  obtain ⟨grant, parsed, source, got, made, sent, hserved⟩ :=
    hcourse.served hlimit (Task.outcome?_eq_some_iff.mp ho) hok he
  obtain ⟨grant', parsed', source', got', made', sent', hserved'⟩ :=
    hcourse'.served hlimit (Task.outcome?_eq_some_iff.mp ho') hok' he'
  obtain rfl : made = data := Option.some.inj (hserved.processed.symm.trans hdata)
  obtain rfl : made' = made := Option.some.inj (hserved'.processed.symm.trans hdata')
  refine ⟨?_, hserved.content? hreads, hserved'.content? hreads⟩
  -- unless nothing is compressed, the form tells whether a client has mentioned gzip
  have hlevel : (Service.ofConfig c epoch gzip).encoder.gzipLevel = c.response.gzipLevel := rfl
  rcases Nat.eq_zero_or_pos c.response.gzipLevel with hzero | hpos
  · have hplain := hserved.representation_of_not (by omega)
    have hplain' := hserved'.representation_of_not (by omega)
    simp [hplain, hplain', hzero]
  · have hsend := hserved.representation_of_mentions hpos
    have hsend' := hserved'.representation_of_mentions hpos
    have hpos_ne : c.response.gzipLevel ≠ 0 := Nat.pos_iff_ne_zero.mp hpos
    by_cases hmentions : Encoder.MentionsGzip t.job.request.fields <;>
      by_cases hmentions' : Encoder.MentionsGzip u.job.request.fields
    · simp [hsend hmentions, hsend' hmentions', hmentions, hmentions']
    · have hplain' := hserved'.representation_of_not (fun h => hmentions' h.2)
      simp [hsend hmentions, hplain', hmentions, hmentions', hpos_ne]
    · have hplain := hserved.representation_of_not (fun h => hmentions h.2)
      simp [hsend' hmentions', hplain, hmentions, hmentions', hpos_ne]
    · have hplain := hserved.representation_of_not (fun h => hmentions h.2)
      have hplain' := hserved'.representation_of_not (fun h => hmentions' h.2)
      simp [hplain, hplain', hmentions, hmentions']

/-- A request for an image of one byte by a client that accepts some encodings. -/
def acceptingJob (arrival : Nat) (encodings : String) : Job :=
  let job := imageJob arrival ⟨some 5, .ok [1]⟩
  { job with request :=
    { job.request with fields := [("accept-encoding", Utf8.ofString encodings)] } }

/-- What is compared of a response: when it is given, its status, its validators and its form. -/
structure Sample where
  finish : Nat
  status : Http.Status
  validators : List Bytes
  form : List Bytes × Bytes
deriving DecidableEq

/-- The sample of the response that a request has got. -/
def sample? (t : Task) : Option Sample :=
  t.answer?.map fun a =>
    ⟨a.1, a.2.status, Http.Fields.values "etag" a.2.fields, a.2.representation⟩

lemma exists_of_sample? {t : Task} {finish : Nat} {status : Http.Status} {e : Bytes}
    {form : List Bytes × Bytes} (h : sample? t = some ⟨finish, status, [e], form⟩) :
    ∃ resp, t.outcome? = some (.response finish resp) ∧ resp.status = status ∧
      ("etag", e) ∈ resp.fields ∧ resp.representation = form := by
  obtain ⟨⟨time, resp⟩, hanswer, heq⟩ := Option.map_eq_some_iff.mp h
  obtain ⟨htime, hstatus, hvalues, hform⟩ := Sample.mk.inj heq
  subst htime
  refine ⟨resp, Task.outcome?_of_answer? hanswer, hstatus, ?_, hform⟩
  rw [← Http.Fields.mem_values, hvalues]
  exact List.mem_singleton_self e

/-- What the samples of two requests say. -/
lemma exists_of_samples {s : Service} {r : Run} {job job' : Job} {finish finish' : Nat} {e : Bytes}
    {form form' : List Bytes × Bytes} (hreach : Reachable s [job, job'] r)
    (hsamples : r.tasks.map sample? =
      [some ⟨finish, .ok, [e], form⟩, some ⟨finish', .ok, [e], form'⟩]) :
    ∃ t u resp resp', r.tasks = [t, u] ∧ t.job = job ∧ u.job = job' ∧
      (t.outcome? = some (.response finish resp) ∧ resp.status = .ok ∧
        ("etag", e) ∈ resp.fields ∧ resp.representation = form) ∧
      u.outcome? = some (.response finish' resp') ∧ resp'.status = .ok ∧
        ("etag", e) ∈ resp'.fields ∧ resp'.representation = form' := by
  obtain ⟨t, rest, htasks, hsample, hrest⟩ := List.map_eq_cons_iff.mp hsamples
  obtain ⟨u, rfl, hsample'⟩ := List.map_eq_singleton_iff.mp hrest
  obtain ⟨resp, hresp⟩ := exists_of_sample? hsample
  obtain ⟨resp', hresp'⟩ := exists_of_sample? hsample'
  have hjobs := hreach.sound.jobs
  rw [htasks] at hjobs
  obtain ⟨hjob, hjobs⟩ := List.cons_eq_cons.mp hjobs
  exact ⟨t, u, resp, resp', htasks, hjob, List.singleton_inj.mp hjobs, hresp, hresp'⟩

/-- Two clients that mention gzip, each in its own way, are sent the same image in the same form. -/
theorem representation_eq_of_acceptingJobs :
    let r := serve (.ofConfig validating 0) [acceptingJob 0 "gzip", acceptingJob 10 "br, gzip"] 100
    ∃ t u e resp resp', r.tasks = [t, u] ∧
      t.outcome? = some (.response 5 resp) ∧ u.outcome? = some (.response 15 resp') ∧
      ("etag", e) ∈ resp.fields ∧ ("etag", e) ∈ resp'.fields ∧
      resp.representation = resp'.representation ∧ resp.content? Gzip.decompress? = some [1] := by
  intro r
  have hreach : Reachable (.ofConfig validating 0)
      [acceptingJob 0 "gzip", acceptingJob 10 "br, gzip"] r := reachable_serve _ _ _
  let e := Utf8.encode (Validator.calculate [1] .standard)
  let form := ([Utf8.ofString "gzip"], Gzip.compress 6 [1])
  have hsamples : r.tasks.map sample? = [some ⟨5, .ok, [e], form⟩, some ⟨15, .ok, [e], form⟩] := by
    decide +kernel
  obtain ⟨t, u, resp, resp', htasks, hjob, hjob', ⟨ho, hok, he, -⟩, ho', hok', he', -⟩ :=
    exists_of_samples hreach hsamples
  obtain ⟨hform, hcontent, -⟩ := representation_eq_iff Gzip.decompress?
    (fun _ => Gzip.decompress?_compress _) hreach hreach (by simp [htasks]) (by simp [htasks])
    ho ho' hok hok' he he' (by rw [hjob]; rfl) (by rw [hjob']; rfl)
  refine ⟨t, u, e, resp, resp', htasks, ho, ho', he, he', ?_, hcontent⟩
  rw [hform, hjob, hjob', ← Encoder.acceptsGzip_iff, ← Encoder.acceptsGzip_iff]
  decide +kernel

/-- Of two clients that get the same image with the same validator the one that mentions gzip is sent
another body, in another encoding. -/
theorem exists_two_representations :
    let r := serve (.ofConfig validating 0) [acceptingJob 0 "br", acceptingJob 10 "gzip"] 100
    ∃ t u e resp resp', r.tasks = [t, u] ∧
      t.outcome? = some (.response 5 resp) ∧ u.outcome? = some (.response 15 resp') ∧
      resp.status = .ok ∧ resp'.status = .ok ∧
      ("etag", e) ∈ resp.fields ∧ ("etag", e) ∈ resp'.fields ∧
      t.job.processed? = some [1] ∧ u.job.processed? = some [1] ∧
      Http.Fields.values "content-encoding" resp.fields ≠
        Http.Fields.values "content-encoding" resp'.fields ∧
      resp.body ≠ resp'.body := by
  intro r
  have hreach : Reachable (.ofConfig validating 0) [acceptingJob 0 "br", acceptingJob 10 "gzip"] r :=
    reachable_serve _ _ _
  let e := Utf8.encode (Validator.calculate [1] .standard)
  let gzipped := Gzip.compress 6 [1]
  have hsamples : r.tasks.map sample? = [some ⟨5, .ok, [e], [], [1]⟩,
      some ⟨15, .ok, [e], [Utf8.ofString "gzip"], gzipped⟩] := by
    decide +kernel
  obtain ⟨t, u, resp, resp', htasks, hjob, hjob', ⟨ho, hok, he, hform⟩, ho', hok', he', hform'⟩ :=
    exists_of_samples hreach hsamples
  obtain ⟨htold, hbody⟩ := Prod.mk.inj hform
  obtain ⟨htold', hbody'⟩ := Prod.mk.inj hform'
  have hother : [1] ≠ gzipped := by decide +kernel
  refine ⟨t, u, e, resp, resp', htasks, ho, ho', hok, hok', he, he', by rw [hjob]; rfl,
    by rw [hjob']; rfl, ?_, ?_⟩
  · rw [htold, htold']
    exact (List.cons_ne_nil _ _).symm
  · rw [hbody, hbody']
    exact hother

end Run

end Gateway
