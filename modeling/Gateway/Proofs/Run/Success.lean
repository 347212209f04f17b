import Mathlib
import Gateway.Proofs.Encoder.Body
import Gateway.Proofs.Encoder.Validator
import Gateway.Proofs.Run.Cleanup
import Gateway.Proofs.Run.Redaction

/-!
# How requests succeed

A request that is admitted succeeds in one of two ways. In both it gets its source in time
(`Fate.Fetches`); then either its client holds a good copy, or the source is processed and the image
encoded in time (`Fate.Serves`). The first section reads this off the fate of the request, and the second
one takes it to runs: a request that has been answered after its admission has met its fate
(`Task.Course.met`), and a response with a validator is always of this kind
(`Task.Course.needsSlot_of_validator`).
-/

namespace Gateway

/-- What the processing makes of the source of a request, if both are delivered. -/
def Job.processed? (job : Job) : Option Bytes :=
  match job.collaborators.download.answer with
  | .error _ => none
  | .ok source => (job.collaborators.process source).answer.toOption

namespace Fate

variable {s : Service} {job : Job} {grant limit got : Nat} {parsed : Parsed} {source : Bytes}
  {r : Http.Response} {entry : LogEntry}

/-! ## Fates that succeed -/

/-- Whether a request gets its source in time: its path can be read, and the download delivers before the
time is up. -/
structure Fetches (job : Job) (grant limit : Nat) (parsed : Parsed) (source : Bytes)
    (got : Nat) : Prop where
  parse : job.collaborators.parse job.request.target = .ok parsed
  start : grant ≠ limit
  download : job.collaborators.download.settled grant limit (timeout grant limit) =
    (got, .ok source)
  finish : got ≠ limit

/-- What is seen of a request until it has its source. -/
def fetching (grant limit : Nat) (parsed : Parsed) (source : Bytes) (got : Nat) :
    List (Nat × Event) :=
  [(grant, .parseCalled), (grant, .downloadCalled parsed.sourceUrl (limit - grant)),
    (got, .downloaded source.length)]

/-- The rest of the fate of a request that gets its source in time begins with the source. -/
lemma Fetches.ofAdmitted (h : Fetches job grant limit parsed source got) (s : Service) :
    ofAdmitted s job grant limit =
      (ofSource s job grant limit parsed source got).after
        (fetching grant limit parsed source got) := by
  obtain ⟨hparse, hstart, hdownload, hfinish⟩ := h
  rw [Fate.ofAdmitted, hparse]
  simp only [ofParsed, if_neg hstart, hdownload, ofDownloaded, if_neg hfinish, after_after]
  rfl

/-- A request only succeeds if it gets its source in time. -/
lemma exists_fetches (h : (Fate.ofAdmitted s job grant limit).result = .ok (r, entry)) :
    ∃ parsed source got, Fetches job grant limit parsed source got := by
  unfold Fate.ofAdmitted at h
  rcases hparse : job.collaborators.parse job.request.target with fault | parsed <;>
    rw [hparse] at h
  · cases h
  by_cases hstart : grant = limit
  · simp only [ofParsed, if_pos hstart] at h
    cases h
  simp only [ofParsed, if_neg hstart] at h
  rcases hdownload : job.collaborators.download.settled grant limit (timeout grant limit) with
    ⟨got, f | source⟩ <;> rw [hdownload] at h
  · cases h
  by_cases hfinish : got = limit
  · simp only [ofDownloaded, if_pos hfinish] at h
    cases h
  · exact ⟨parsed, source, got, hparse, hstart, hdownload, hfinish⟩

/-- The validator that a request sends with its image, if validators are in use. -/
def tag? (s : Service) (parsed : Parsed) (source : Bytes) : Option (List Char) :=
  if s.etags then some (Validator.calculate source parsed.transform) else none

/-- Whether a request is answered with its image: the processing delivers before the time is up, and the
image can be encoded. -/
structure Serves (s : Service) (job : Job) (grant limit : Nat) (parsed : Parsed) (source : Bytes)
    (got : Nat) (data : Bytes) (done : Nat) (r : Http.Response) : Prop where
  process : (job.collaborators.process source).settled got limit (timeout grant limit) =
    (done, .ok data)
  finish : done ≠ limit
  image : (s.encoder.image Encoder.freshPool (s.dateAt done) job.request.fields parsed.transform
    parsed.sourceUrl (tag? s parsed source) data s.gzip).1 = .ok r

/-- A request whose source is processed only succeeds with its image. -/
lemma exists_serves_of_ofProcess
    (h : (ofProcess s job grant limit parsed source (tag? s parsed source) got).result =
      .ok (r, entry)) :
    ∃ data, Serves s job grant limit parsed source got data
      (ofProcess s job grant limit parsed source (tag? s parsed source) got).finish r := by
  unfold ofProcess at h ⊢
  rcases hprocess : (job.collaborators.process source).settled got limit (timeout grant limit) with
    ⟨done, f | data⟩ <;> simp only [hprocess] at h ⊢
  · cases h
  by_cases hfinish : done = limit
  · simp only [ofProcessed, if_pos hfinish] at h
    cases h
  simp only [ofProcessed, if_neg hfinish] at h
  rw [after_finish, ofProcessed_finish]
  refine ⟨data, hprocess, hfinish, ?_⟩
  have hencoded : encoded s job grant limit parsed (tag? s parsed source) data done =
      .ok (r, entry) := h
  unfold encoded at hencoded
  rcases himage : (s.encoder.image Encoder.freshPool (s.dateAt done) job.request.fields
      parsed.transform parsed.sourceUrl (tag? s parsed source) data s.gzip).1 with f | r' <;>
    rw [himage] at hencoded
  · cases hencoded
  · obtain ⟨rfl, -⟩ := Prod.mk.inj (Except.ok.inj hencoded)
    rfl

/-- A request that has its source in time succeeds because its client holds a good copy, or with its
image. -/
lemma success_of_ofSource
    (h : (ofSource s job grant limit parsed source got).result = .ok (r, entry)) :
    (Validator.covers job.request.fields (Validator.calculate source parsed.transform) = true ∧
      r = Encoder.notModified (Validator.calculate source parsed.transform)) ∨
    ∃ data, Serves s job grant limit parsed source got data
      (ofSource s job grant limit parsed source got).finish r := by
  unfold ofSource at h ⊢
  simp only at h ⊢
  by_cases hetags : s.etags = true
  · by_cases hcovers : Validator.covers job.request.fields
        (Validator.calculate source parsed.transform) = true
    · simp only [hetags, hcovers, if_true] at h
      obtain ⟨rfl, -⟩ := Prod.mk.inj (Except.ok.inj h)
      exact .inl ⟨hcovers, rfl⟩
    · simp only [hetags, hcovers, if_true] at h ⊢
      have htag : some (Validator.calculate source parsed.transform) = tag? s parsed source := by
        rw [tag?, if_pos hetags]
      rw [htag] at h ⊢
      exact .inr (exists_serves_of_ofProcess h)
  · simp only [hetags] at h ⊢
    have htag : none = tag? s parsed source := by
      rw [tag?, if_neg hetags]
    rw [htag] at h ⊢
    exact .inr (exists_serves_of_ofProcess h)

/-- The source is there before the time is up. -/
lemma Fetches.le (h : Fetches job grant limit parsed source got) : got ≤ limit := by
  have hle : (job.collaborators.download.settled grant limit (timeout grant limit)).1 ≤ limit :=
    Call.settled_le _ _
  rwa [h.download] at hle

section Serves

variable {data : Bytes} {done : Nat}

/-- The image is not there before its source. -/
lemma Serves.le (h : Serves s job grant limit parsed source got data done r) (hle : got ≤ limit) :
    got ≤ done := by
  have hdone : got ≤ ((job.collaborators.process source).settled got limit
      (timeout grant limit)).1 :=
    Call.le_settled _ hle _
  rwa [h.process] at hdone

/-- What is served is what the collaborators have made of the request. -/
lemma Serves.processed? (h : Serves s job grant limit parsed source got data done r)
    (hfetches : Fetches job grant limit parsed source got) : job.processed? = some data := by
  have hsource : job.collaborators.download.answer = .ok source :=
    Call.answer_of_settled (congrArg Prod.snd hfetches.download)
  have hdata : (job.collaborators.process source).answer = .ok data :=
    Call.answer_of_settled (congrArg Prod.snd h.process)
  rw [Job.processed?, hsource]
  simp only [hdata]
  rfl

/-- A validator that is sent with an image is the one of its source. -/
lemma Serves.validator (h : Serves s job grant limit parsed source got data done r) {e : Bytes}
    (he : e ∈ Http.Fields.values "etag" r.fields) :
    s.etags = true ∧ e = Utf8.encode (Validator.calculate source parsed.transform) := by
  rw [(Encoder.values_of_image h.image).1] at he
  unfold tag? at he
  split at he
  · next hetags => exact ⟨hetags, List.mem_singleton.mp he⟩
  · cases he

end Serves

/-- A failure is told without a validator. -/
lemma values_etag_ofFailure (f : Failure) :
    Http.Fields.values "etag" (Http.Response.ofFailure f).fields = [] := by
  simp [Http.Response.ofFailure, Http.Response.plain, Http.Fields.values]

/-- A fate whose response has a validator is a success. -/
lemma exists_success_of_validator {f : Fate} {e : Bytes}
    (he : e ∈ Http.Fields.values "etag" f.response.fields) :
    ∃ r entry, f.result = .ok (r, entry) ∧ f.response = r := by
  rcases hresult : f.result with failure | ⟨r, entry⟩
  · rw [response, hresult, values_etag_ofFailure] at he
    cases he
  · exact ⟨r, entry, rfl, by rw [response, hresult]⟩

end Fate

/-! ## Requests that have been answered -/

namespace Task

variable {s : Service} {last budget finish : Nat} {t : Task} {resp : Http.Response} {e : Bytes}

/-- A request that publishes the number of slots has been admitted. -/
lemma visit_ne_nil_of_gauge (h : .gauge ∈ t.effects) : t.visit ≠ [] := by
  intro hvisit
  obtain ⟨x, hx, hshows⟩ := List.mem_filterMap.mp h
  have hnone := List.countP_eq_zero.mp (visit_eq_nil_iff.mp hvisit) x hx
  unfold Event.effect? at hshows
  split at hshows <;> first | exact hnone rfl | cases hshows

/-- A success that is logged is an effect. -/
lemma succeeded_mem_effects {status : Http.Status} :
    .succeeded status ∈ t.effects ↔ ∃ message, .log (.responded status message) ∈ t.events := by
  constructor
  · intro h
    obtain ⟨x, hx, hshows⟩ := List.mem_filterMap.mp h
    unfold Event.effect? at hshows
    split at hshows <;> cases hshows
    exact ⟨_, hx⟩
  · rintro ⟨message, hx⟩
    exact List.mem_filterMap.mpr ⟨_, hx, rfl⟩

/-- A failure that is logged is an effect. -/
lemma failed_mem_effects {status : Http.Status} :
    .failed status ∈ t.effects ↔ ∃ f, .log (.failed f) ∈ t.events ∧ f.status = status := by
  constructor
  · intro h
    obtain ⟨x, hx, hshows⟩ := List.mem_filterMap.mp h
    unfold Event.effect? at hshows
    split at hshows <;> cases hshows
    exact ⟨_, hx, rfl⟩
  · rintro ⟨f, hx, rfl⟩
    exact List.mem_filterMap.mpr ⟨_, hx, rfl⟩

/-- What has become of a request that has been served its image together with a validator: when it was
admitted, what it has got and when, what has been made of it, and the response before the permission for
other origins is put in. -/
structure Served (s : Service) (budget : Nat) (t : Task) (finish : Nat) (resp : Http.Response)
    (e : Bytes) (grant : Nat) (parsed : Parsed) (source : Bytes) (got : Nat) (data : Bytes)
    (r : Http.Response) : Prop where
  needsSlot : Stage.NeedsSlot s t.job.request
  granted : t.grantTime? = some grant
  start : Deadline.start? (instantOf grant) s.writeTimeout = some (.between grant (grant + budget))
  fetches : Fate.Fetches t.job grant (grant + budget) parsed source got
  serves : Fate.Serves s t.job grant (grant + budget) parsed source got data finish r
  got_le : got ≤ finish
  processed : t.job.processed? = some data
  response : resp = { r with fields := s.crossOrigin.apply r.fields }
  etags : s.etags = true
  validator : e = Utf8.encode (Validator.calculate source parsed.transform)

namespace Course

/-- No turn of a request comes after its cancellation. -/
lemma le_cancelAt (h : Course s last t) {c : Nat} (hc : t.job.cancelAt = some c) : last ≤ c := by
  cases h with
  | expected job => exact Nat.zero_le c
  | turn ht hle hfit htakes =>
    have hopen := htakes.not_ended
    rw [after_job] at hc
    cases htakes with
    | fires htimer | cancels htimer =>
      exact time_le_of_cancelTime? htimer (cancelTime?_eq_some_iff.mpr ⟨hopen, hc⟩)
    | resumes hqueued hhanded hcancel => exact hcancel c hc

/-- A request that needs a slot and has logged its success has been answered with the status that it has
logged, and it has logged no failure. -/
lemma of_succeeded (h : Course s last t) (hneeds : Stage.NeedsSlot s t.job.request)
    {status : Http.Status} (hmem : .succeeded status ∈ t.effects) :
    ∃ finish resp, t.phase = .ended (.response finish resp) ∧ resp.status = status ∧
      ∀ other, .failed other ∉ t.effects := by
  have hsofar := h.sofar
  generalize t.phase = p, t.effects = xs at hsofar hmem
  cases hsofar with
  | expected | queued => simp at hmem
  | @inside _ q =>
    generalize Stage.hasImage q.stage = img at hmem
    cases img <;> simp [Effect.opening, Effect.image] at hmem
  | ended hexit =>
    cases hexit with
    | unseen | left | panicked => simp [Effect.closing] at hmem
    | refused hnot => exact absurd hneeds hnot
    | stopped _ img | failed _ img =>
      cases img <;> simp [Effect.opening, Effect.image, Effect.closing] at hmem
    | succeeded _ finish resp =>
      refine ⟨finish, resp, rfl, ?_, ?_⟩
      · simpa [Effect.opening, Effect.image, Effect.closing, eq_comm] using hmem
      · simp [Effect.opening, Effect.image, Effect.closing]

/-- A request that needs a slot and has been answered has been admitted. -/
lemma exists_grant (h : Course s last t) (hneeds : Stage.NeedsSlot s t.job.request)
    (hphase : t.phase = .ended (.response finish resp)) : ∃ grant, t.grantTime? = some grant := by
  have hexit : Exit s t.job (.response finish resp) t.effects := (hphase ▸ h.sofar).exit
  have hgauge : .gauge ∈ t.effects := by
    generalize t.effects = xs at hexit
    cases hexit with
    | refused hnot => exact absurd hneeds hnot
    | succeeded | failed => simp [Effect.opening]
  exact Option.ne_none_iff_exists'.mp (mt grantTime?_eq_none_iff.mp (visit_ne_nil_of_gauge hgauge))

/-- A request that has been answered after its admission has met its fate. -/
lemma met (h : Course s last t) (hlimit : s.writeTimeout = .ofMillis budget)
    (hneeds : Stage.NeedsSlot s t.job.request)
    (hphase : t.phase = .ended (.response finish resp)) :
    ∃ grant, t.grantTime? = some grant ∧
      Deadline.start? (instantOf grant) s.writeTimeout = some (.between grant (grant + budget)) ∧
      finish = (Fate.ofAdmitted s t.job grant (grant + budget)).finish ∧
      resp = { (Fate.ofAdmitted s t.job grant (grant + budget)).response with
        fields := s.crossOrigin.apply
          (Fate.ofAdmitted s t.job grant (grant + budget)).response.fields } ∧
      ∃ n m, t.visit = (Fate.ofAdmitted s t.job grant (grant + budget)).visit grant n m := by
  obtain ⟨grant, hgrant⟩ := h.exists_grant hneeds hphase
  have hstart : Deadline.start? (instantOf grant) s.writeTimeout =
      some (.between grant (grant + budget)) := by
    rcases (h.stay hgrant).start_cases with ⟨-, hpanicked, -⟩ | ⟨⟨d, hstart⟩, -⟩
    · cases hphase.symm.trans hpanicked
    · rw [hlimit] at hstart ⊢
      rw [hstart, Deadline.eq_between_of_start? hstart]
  have hfated := h.fated hgrant hstart (Nat.le_add_right _ _)
  rw [hphase] at hfated
  rcases hfated.of_ended rfl with ⟨heq, hvisit⟩ | ⟨hcancelled, -⟩
  · obtain ⟨hfinish, hresp⟩ := Outcome.response.inj heq
    exact ⟨grant, hgrant, hstart, hfinish, hresp, hvisit⟩
  · cases hcancelled

/-- A request that is answered with a validator needs a slot. -/
lemma needsSlot_of_validator (h : Course s last t)
    (hphase : t.phase = .ended (.response finish resp)) (he : ("etag", e) ∈ resp.fields) :
    Stage.NeedsSlot s t.job.request := by
  by_contra hneeds
  obtain ⟨entries, short, hshort⟩ := Stage.exists_shortcut_iff.mpr hneeds
  rcases (h.arrival.brief hshort).outcome (outcome?_eq_some_iff.mpr hphase) with heq | ⟨hdropped, -⟩
  · obtain ⟨-, rfl⟩ := Outcome.response.inj heq
    have hnone : Http.Fields.values "etag" short.fields = [] := by
      cases hshort <;> simp [Http.Response.plain, Http.Fields.values]
    rw [← Http.Fields.mem_values, Http.Fields.values_apply _ (by decide) (by decide), hnone] at he
    cases he
  · cases hdropped

/-- A request that is answered with success and a validator has been served its image. -/
lemma served (h : Course s last t) (hlimit : s.writeTimeout = .ofMillis budget)
    (hphase : t.phase = .ended (.response finish resp)) (hok : resp.status = .ok)
    (he : ("etag", e) ∈ resp.fields) :
    ∃ grant parsed source got data r,
      Served s budget t finish resp e grant parsed source got data r := by
  have hneeds := h.needsSlot_of_validator hphase he
  obtain ⟨grant, hgrant, hstart, hfinish, rfl, -⟩ := h.met hlimit hneeds hphase
  rw [← Http.Fields.mem_values, Http.Fields.values_apply _ (by decide) (by decide)] at he
  obtain ⟨r, entry, hresult, hresponse⟩ := Fate.exists_success_of_validator he
  rw [hresponse] at he hok
  obtain ⟨parsed, source, got, hfetches⟩ := Fate.exists_fetches hresult
  rw [hfetches.ofAdmitted] at hresult hfinish
  rcases Fate.success_of_ofSource hresult with ⟨-, hr⟩ | ⟨data, hserves⟩
  · -- the other answer has another status
    have hstatus : r.status = .notModified := by
      rw [hr]
      exact Encoder.status_notModified _
    rw [hstatus] at hok
    exact absurd hok (by decide)
  · rw [Fate.after_finish] at hfinish
    rw [← hfinish] at hserves
    obtain ⟨hetags, htag⟩ := hserves.validator he
    exact ⟨grant, parsed, source, got, data, r, hneeds, hgrant, hstart, hfetches, hserves,
      hserves.le hfetches.le, hserves.processed? hfetches, by rw [hresponse], hetags, htag⟩

end Course

/-- The response that a request has got, with the time. -/
def answer? (t : Task) : Option (Nat × Http.Response) :=
  t.outcome?.bind fun
    | .response finish resp => some (finish, resp)
    | _ => none

lemma outcome?_of_answer? (h : t.answer? = some (finish, resp)) :
    t.outcome? = some (.response finish resp) := by
  obtain ⟨o, ho, hanswer⟩ := Option.bind_eq_some_iff.mp h
  cases o with
  | response =>
    obtain ⟨rfl, rfl⟩ := Prod.mk.inj (Option.some.inj hanswer)
    exact ho
  | cancelled | panicked => cases hanswer

end Task

namespace Run

/-- A request whose answer is seen at a place of a run. -/
lemma exists_of_answer {r : Run} {i finish : Nat} {status : Http.Status}
    (hseen : (r.tasks[i]?.bind fun t => t.answer?.map fun a => (a.1, a.2.status)) =
      some (finish, status)) :
    ∃ t resp, r.tasks[i]? = some t ∧ t.outcome? = some (.response finish resp) ∧
      resp.status = status := by
  obtain ⟨t, ht, hseen⟩ := Option.bind_eq_some_iff.mp hseen
  obtain ⟨⟨time, resp⟩, hanswer, heq⟩ := Option.map_eq_some_iff.mp hseen
  obtain ⟨htime, hstatus⟩ := Prod.mk.inj heq
  subst htime
  exact ⟨t, resp, ht, Task.outcome?_of_answer? hanswer, hstatus⟩

/-- A configuration with a single slot in which images are compressed and sent with validators. -/
def validating : Config := { oneSlot with response := ⟨3600, 6, true⟩ }

end Run

end Gateway
