import Mathlib
import Gateway.Proofs.Run.Queueing
import Gateway.Proofs.Run.Success

/-!
# Asking again with a validator

A client that has been sent an image with a validator can ask again with the validator in a list. Two runs
are compared here, the one of the first request and the one of the same request with one more field
(`Job.revalidating`). Both get the source at the same time, since no stage before that looks at the field;
then the second request stops with the answer that the copy is still good, while the first one goes on to
the processing. So the second answer is not later than the first, it has the same validator and no body, and
nothing has been processed for it (`Run.revalidated_of_served`).

A client that sends no list is never told that its copy is good. If it is answered with the status for that
all the same, this is how a collaborator has failed, and it is logged as a failure.
-/

namespace Gateway

/-! ## What is seen outside a visit -/

/-- Whether an event can be seen of a request before its admission or instead of it. -/
def Event.isOutside : Event → Bool
  | .log _ => true
  | .requestCounted => true
  | .durationRecorded => true
  | _ => false

/-- Whether an event shows that a source is processed or that an error is counted. -/
def Event.spends : Event → Bool
  | .processCalled .. => true
  | .errorCounted _ => true
  | _ => false

lemma Event.spends_of_isOutside {x : Event} (h : x.isOutside = true) : x.spends = false := by
  cases x with
  | processCalled | errorCounted => cases h
  | _ => rfl

lemma Event.isGauge_of_isOutside {x : Event} (h : x.isOutside = true) : x.isGauge = false := by
  cases x with
  | slotsInUse => cases h
  | _ => rfl

namespace Stage

variable {s : Service} {job : Job} {now : Nat}

/-- Before a request enters nothing else is seen of it. -/
lemma Entry.outside {p : Phase} {front : List Event} (h : Entry s job p front) :
    ∀ x ∈ front, x.isOutside = true := by
  cases h with
  | arrives => simp [Event.isOutside]
  | resumes => simp

/-- A move of a request that is outside either keeps it there, or admits it. -/
lemma Move.outside {p p' : Phase} {es : List Event} (h : Move s job now p es p')
    (hp : p.pending? = none) :
    (∀ x ∈ es, x.isOutside = true) ∨
      ∃ front n rest, es = front ++ .slotsInUse n :: rest ∧ ∀ x ∈ front, x.isOutside = true := by
  cases h with
  | answered hlogs =>
    left
    intro x hx
    obtain ⟨entry, rfl⟩ := hlogs x hx
    rfl
  | queued | dropped | left => exact .inl (by simp [Event.isOutside])
  | panicked hentry | admitted hentry => exact .inr ⟨_, _, _, rfl, hentry.outside⟩
  | worked hpending | stopped hpending => cases hp.symm.trans hpending

end Stage

namespace Task

variable {s : Service} {last : Nat} {t : Task}

/-- Outside its visit little is seen of a request. -/
lemma Course.outside (h : Course s last t) : ∀ e ∈ t.trace, e ∈ t.visit ∨ e.2.isOutside = true := by
  refine moves (P := fun _ t => ∀ e ∈ t.trace, e ∈ t.visit ∨ e.2.isOutside = true)
    (fun job => ?_) (fun {_ now t es p} ht ih _ hmove => ?_) h
  · intro e he
    cases he
  · intro e he
    by_cases hvisit : t.visit = []
    · have hbefore : ∀ e ∈ t.trace, e.2.isOutside = true := by
        intro e he
        have hcases := ih e he
        rw [hvisit] at hcases
        exact hcases.resolve_left List.not_mem_nil
      have hp : t.phase.pending? = none := by
        rcases hq : t.phase.pending? with _ | q
        · rfl
        · have hgauges := ht.gauges.1
          rw [Phase.gauges_of_holds (Phase.standing_of_pending hq), visit_eq_nil_iff.mp hvisit]
            at hgauges
          cases hgauges
      rcases List.mem_append.mp he with he | he
      · exact .inr (hbefore e he)
      obtain ⟨x, hx, rfl⟩ := List.mem_map.mp he
      rcases hmove.outside hp with hquiet | ⟨front, n, rest, rfl, hfront⟩
      · exact .inr (hquiet x hx)
      rcases List.mem_append.mp hx with hx | hx
      · exact .inr (hfront x hx)
      · left
        have hnone : front.countP Event.isGauge = 0 := by
          rw [List.countP_eq_zero]
          intro y hy
          rw [Event.isGauge_of_isOutside (hfront y hy)]
          exact Bool.false_ne_true
        rw [visit_moved_of_entry hvisit now hnone]
        exact List.mem_map_of_mem hx
    · rw [visit_moved_of_admitted hvisit]
      rcases List.mem_append.mp he with he | he
      · exact (ih e he).imp (List.mem_append_left _) id
      · exact .inl (List.mem_append_right _ he)

lemma mem_events_of_visit {time : Nat} {x : Event} (h : (time, x) ∈ t.visit) : x ∈ t.events :=
  List.mem_map_of_mem ((List.dropWhile_suffix _).subset h)

/-- A request is only admitted where there are slots. -/
lemma Course.capacity_pos (h : Course s last t) {grant : Nat} (hgrant : t.grantTime? = some grant) :
    0 < s.capacity := by
  induction h with
  | expected job => cases hgrant
  | @turn _ now _ _ t turn ht _ hfit htakes ih =>
    by_cases hvisit : t.visit = []
    · obtain ⟨-, -, hlt, -⟩ := htakes.grant ht hfit hvisit hgrant
      exact Nat.zero_lt_of_lt hlt
    · rw [after, grantTime?_moved_of_admitted hvisit] at hgrant
      exact ih hgrant

/-- A request that has been answered has arrived. -/
lemma Course.arrives (h : Course s last t) {finish : Nat} {resp : Http.Response}
    (hphase : t.phase = .ended (.response finish resp)) :
    t.job.Arrives ∧ t.job.arrival ≤ last := by
  cases h.arrival with
  | expected job => cases hphase
  | dropped => cases hphase
  | arrived harrives hle => exact ⟨harrives, hle⟩

end Task

namespace Run

variable {s : Service} {horizon : Nat}

/-- A request that is alone is admitted when it arrives. -/
lemma granted_alone {job : Job} {u : Task} (hneeds : Stage.NeedsSlot s job.request)
    (hcapacity : 0 < s.capacity) (harrives : job.Arrives) (hle : job.arrival ≤ horizon)
    (htasks : (serve s [job] horizon).tasks = [u]) : u.grantTime? = some job.arrival := by
  obtain ⟨first, shared, hfirst, -, hvisit⟩ :=
    @admitted_alone s horizon job job.arrival hneeds hcapacity harrives hle
  obtain ⟨n, rest, hevents⟩ := Stage.admitted_events s job 0 job.arrival shared
  have hgrant : first.grantTime? = some job.arrival := by
    rw [Task.grantTime?, hvisit, hevents]
    rfl
  have hserve : serve s [job] horizon = steps s horizon 3 (steps s horizon 1 (start s [job])) :=
    steps_add s horizon 1 3 (start s [job])
  have hleads : Leads s (steps s horizon 1 (start s [job])) (serve s [job] horizon) := by
    rw [hserve]
    exact Leads.here.steps
  obtain ⟨last, hlast, hgranted⟩ := hleads.grantTime? (i := 0) ⟨first, by rw [hfirst]; rfl, hgrant⟩
  rw [htasks] at hlast
  obtain rfl := Option.some.inj hlast
  exact hgranted

/-- A run of one request has one task, that of the request. -/
lemma exists_alone (s : Service) (job : Job) (horizon : Nat) :
    ∃ u last, (serve s [job] horizon).tasks = [u] ∧ u.job = job ∧ last ≤ horizon ∧
      Task.Course s last u := by
  have hsound := (reachable_serve s [job] horizon).sound
  obtain ⟨u, htasks, hjob⟩ := List.map_eq_singleton_iff.mp hsound.jobs
  obtain ⟨last, hlast, hcourse⟩ := hsound.course u (by simp [htasks])
  exact ⟨u, last, htasks, hjob, hlast.trans (stoppedAt_serve s [job] horizon).1, hcourse⟩

end Run

/-! ## One more list -/

/-- The request of a job with one more list of validators, at a place among its fields. -/
def Job.revalidating (job : Job) (place : Nat) (v : Bytes) : Job :=
  { job with request := { job.request with
      fields := job.request.fields.take place ++
        ("if-none-match", v) :: job.request.fields.drop place } }

namespace Job

variable {s : Service} {job : Job} {place : Nat} {v : Bytes}

lemma arrival_revalidating : (job.revalidating place v).arrival = job.arrival := rfl

lemma cancelAt_revalidating : (job.revalidating place v).cancelAt = job.cancelAt := rfl

/-- The values of all other names are what they were. -/
lemma values_revalidating {name : String} (h : "if-none-match" ≠ name) :
    Http.Fields.values name (job.revalidating place v).request.fields =
      Http.Fields.values name job.request.fields := by
  rw [revalidating, Http.Fields.values_append, Http.Fields.values_cons_of_ne h,
    ← Http.Fields.values_append, List.take_append_drop]

lemma mem_values_revalidating :
    v ∈ Http.Fields.values "if-none-match" (job.revalidating place v).request.fields := by
  rw [Http.Fields.mem_values]
  exact List.mem_append_right _ List.mem_cons_self

/-- The list does not matter for whether the request needs a slot. -/
lemma needsSlot_revalidating (h : Stage.NeedsSlot s job.request) :
    Stage.NeedsSlot s (job.revalidating place v).request := by
  obtain ⟨hget, hcheck, hshown⟩ := h
  refine ⟨hget, ?_, hshown⟩
  have hfirst : Http.Fields.first? "authorization" (job.revalidating place v).request.fields =
      Http.Fields.first? "authorization" job.request.fields :=
    congrArg List.head? (values_revalidating (by decide))
  have hadmits : s.secret.admits (job.revalidating place v).request.fields =
      s.secret.admits job.request.fields := by
    unfold Access.Secret.admits Access.Secret.presented
    rw [hfirst]
  rw [Stage.check_eq_ok_iff] at hcheck ⊢
  rw [hadmits, hcheck]

end Job

/-- A request that gets its source in time while its client holds a good copy ends there. -/
lemma Fate.Fetches.unchanged {s : Service} {job : Job} {grant limit got : Nat} {parsed : Parsed}
    {source : Bytes} (h : Fetches job grant limit parsed source got) (hetags : s.etags = true)
    (hcovers : Validator.covers job.request.fields
      (Validator.calculate source parsed.transform) = true) :
    Fate.ofAdmitted s job grant limit =
      (leaves got true (.ok (Encoder.notModified (Validator.calculate source parsed.transform),
        .responded .notModified Stage.notModifiedMessage))).after
          (fetching grant limit parsed source got) := by
  rw [h.ofAdmitted, ofSource]
  simp only [hetags, hcovers, if_true]

/-- While its source is fetched and when it leaves with it, nothing is processed for a request, and no
error is counted. -/
lemma Fate.spends_of_unchanged {grant limit got n m : Nat} {parsed : Parsed} {source : Bytes}
    {r : Http.Response} {entry : LogEntry} {e : Nat × Event}
    (he : e ∈ ((leaves got true (.ok (r, entry))).after
      (fetching grant limit parsed source got)).visit grant n m) : e.2.spends = false := by
  simp only [visit, after, leaves, fetching, closing, departure, List.mem_cons, List.mem_append,
    List.mem_map, List.not_mem_nil, or_false, if_true, List.append_nil] at he
  rcases he with rfl | (rfl | rfl | rfl) | ⟨x, rfl | rfl | rfl | rfl, rfl⟩ <;> rfl

namespace Run

/-- What is promised to a client that asks again with the validator of an answer that it got at a
millisecond. -/
structure Revalidated (u : Task) (finish : Nat) (e : Bytes) : Prop where
  /-- It is told that its copy is good, with the same validator and without a body, and not later. -/
  answered : ∃ finish' resp, u.outcome? = some (.response finish' resp) ∧ finish' ≤ finish ∧
    resp.status = .notModified ∧ Http.Fields.values "etag" resp.fields = [e] ∧ resp.body = []
  /-- Nothing is processed for it. -/
  not_processed : ∀ size left, .processCalled size left ∉ u.events
  /-- No error is counted. -/
  no_errors : ∀ stage, .errorCounted stage ∉ u.events

/-- What is promised to a client that sends no list of validators. -/
structure Unlisted (t : Task) : Prop where
  /-- It is never told that its copy is good. -/
  not_confirmed : ∀ message, .log (.responded .notModified message) ∉ t.events
  /-- If the status says so all the same, a collaborator has failed with this status. -/
  failed : ∀ finish resp, t.outcome? = some (.response finish resp) → resp.status = .notModified →
    ∃ f, .log (.failed f) ∈ t.events ∧ f.status = .notModified

end Run

namespace Task.Course

variable {s : Service} {last budget : Nat} {t : Task}

/-- A request whose client holds a good copy is told so as soon as its source is there. -/
lemma revalidated (h : Course s last t) {grant got finish : Nat} {parsed : Parsed}
    {source : Bytes} (hgrant : t.grantTime? = some grant)
    (hstart : Deadline.start? (instantOf grant) s.writeTimeout =
      some (.between grant (grant + budget)))
    (hfetches : Fate.Fetches t.job grant (grant + budget) parsed source got)
    (hetags : s.etags = true)
    (hcovers : Validator.covers t.job.request.fields
      (Validator.calculate source parsed.transform) = true)
    (hgot : got ≤ finish) (hcancel : ∀ c, t.job.cancelAt = some c → finish ≤ c)
    (hended : t.hasEnded = true) :
    Run.Revalidated t finish (Utf8.encode (Validator.calculate source parsed.transform)) := by
  have hfate := hfetches.unchanged hetags hcovers
  rw [Validator.notModified_calculate] at hfate
  obtain ⟨o, ho⟩ := hasEnded_iff.mp hended
  have hfated := h.fated hgrant hstart (Nat.le_add_right _ _)
  rw [ho] at hfated
  rcases hfated.of_ended hfate with ⟨rfl, n, m, hvisit⟩ | ⟨-, c, hc, hlt, -⟩
  · have hquiet : ∀ x ∈ t.events, x.spends = false := by
      intro x hx
      obtain ⟨e, he, rfl⟩ := List.mem_map.mp hx
      rcases h.outside e he with hinside | houtside
      · rw [hvisit] at hinside
        exact Fate.spends_of_unchanged hinside
      · exact Event.spends_of_isOutside houtside
    constructor
    · refine ⟨got, _, outcome?_eq_some_iff.mpr ho, hgot, rfl, ?_, rfl⟩
      rw [Http.Fields.values_apply _ (by decide) (by decide)]
      exact Http.Fields.values_cons_self
    · intro size left hmem
      cases hquiet _ hmem
    · intro stage hmem
      cases hquiet _ hmem
  · -- a cancellation would have come before the first answer
    have hle := hcancel c hc
    rw [Fate.after_finish] at hlt
    have hlate : c < got := hlt
    omega

/-- A request that is answered without admission is not told that its client's copy is good. -/
lemma not_confirmed_of_shortcut (h : Course s last t) (hneeds : ¬ Stage.NeedsSlot s t.job.request)
    (message : String) : .log (.responded .notModified message) ∉ t.events := by
  intro hmem
  obtain ⟨entries, short, hshort⟩ := Stage.exists_shortcut_iff.mpr hneeds
  have hbrief := h.arrival.brief hshort
  generalize t.job = job at hbrief hshort
  cases hbrief with
  | expected | dropped => simp [events, ofJob] at hmem
  | answered =>
    have hentry : .responded .notModified message ∈ entries := by simpa [events] using hmem
    have hother : Http.Status.notModified ≠ .ok := by decide
    cases hshort <;> simp [hother] at hentry

/-- A request whose client sends no list is not told that its client's copy is good. -/
lemma not_confirmed (h : Course s last t) (hlimit : s.writeTimeout = .ofMillis budget)
    (hnone : Http.Fields.values "if-none-match" t.job.request.fields = []) (message : String) :
    .log (.responded .notModified message) ∉ t.events := by
  intro hmem
  have hneeds : Stage.NeedsSlot s t.job.request := by
    by_contra hnot
    exact h.not_confirmed_of_shortcut hnot message hmem
  -- it has succeeded with this status, so that its fate has done so
  have heffect : .succeeded .notModified ∈ t.effects := succeeded_mem_effects.mpr ⟨message, hmem⟩
  obtain ⟨finish, resp, hphase, hstatus, hfailed⟩ := h.of_succeeded hneeds heffect
  obtain ⟨grant, -, -, -, rfl, n, m, hvisit⟩ := h.met hlimit hneeds hphase
  rcases hresult : (Fate.ofAdmitted s t.job grant (grant + budget)).result with f | ⟨r, entry⟩
  · have hlog : ((Fate.ofAdmitted s t.job grant (grant + budget)).finish, .log (.failed f)) ∈
        t.visit := by
      rw [hvisit, Fate.visit, Fate.closing, hresult]
      simp
    exact hfailed f.status (failed_mem_effects.mpr ⟨f, mem_events_of_visit hlog, rfl⟩)
  · have hresponse : (Fate.ofAdmitted s t.job grant (grant + budget)).response = r := by
      rw [Fate.response, hresult]
    obtain ⟨parsed, source, got, hfetches⟩ := Fate.exists_fetches hresult
    rw [hfetches.ofAdmitted] at hresult
    rcases Fate.success_of_ofSource hresult with ⟨hcovers, -⟩ | ⟨data, hserves⟩
    · rw [Validator.covers_of_no_list hnone] at hcovers
      cases hcovers
    · rw [hresponse] at hstatus
      have hok := Encoder.status_of_image hserves.image
      exact absurd (hok.symm.trans hstatus) (by decide)

lemma unlisted (h : Course s last t) (hlimit : s.writeTimeout = .ofMillis budget)
    (hnone : Http.Fields.values "if-none-match" t.job.request.fields = []) : Run.Unlisted t := by
  constructor
  · exact h.not_confirmed hlimit hnone
  · intro finish resp ho hstatus
    have hphase := outcome?_eq_some_iff.mp ho
    have hexit : Exit s t.job (.response finish resp) t.effects := (hphase ▸ h.sofar).exit
    generalize heffects : t.effects = xs at hexit
    cases hexit with
    | refused hneeds =>
      obtain ⟨entries, short, hshort⟩ := Stage.exists_shortcut_iff.mpr hneeds
      rcases (h.arrival.brief hshort).outcome ho with heq | ⟨hdropped, -⟩
      · obtain ⟨-, rfl⟩ := Outcome.response.inj heq
        have hother : short.status ≠ .notModified := by
          cases hshort <;> decide
        exact absurd hstatus hother
      · cases hdropped
    | succeeded =>
      have hmem : .succeeded .notModified ∈ t.effects := by
        rw [heffects, hstatus]
        simp
      obtain ⟨message, hlog⟩ := succeeded_mem_effects.mp hmem
      exact absurd hlog (h.not_confirmed hlimit hnone message)
    | failed =>
      have hmem : .failed .notModified ∈ t.effects := by
        rw [heffects, hstatus]
        simp
      exact failed_mem_effects.mp hmem

end Task.Course

namespace Run

/-- What follows for a run of the same request with one more list from what has been served without it. -/
lemma exists_revalidated {job : Job} {budget place got finish : Nat} {v source : Bytes}
    {parsed : Parsed} (hneeds : Stage.NeedsSlot s job.request) (hcapacity : 0 < s.capacity)
    (harrives : job.Arrives) (harrival : job.arrival ≤ horizon)
    (hstart : Deadline.start? (instantOf job.arrival) s.writeTimeout =
      some (.between job.arrival (job.arrival + budget)))
    (hfetches : Fate.Fetches job job.arrival (job.arrival + budget) parsed source got)
    (hetags : s.etags = true)
    (hlists : Validator.Lists v (Utf8.encode (Validator.calculate source parsed.transform)))
    (hgot : got ≤ finish) (hfinish : finish ≤ horizon)
    (hcancel : ∀ c, job.cancelAt = some c → finish ≤ c) :
    ∃ u, (serve s [job.revalidating place v] horizon).tasks = [u] ∧
      Revalidated u finish (Utf8.encode (Validator.calculate source parsed.transform)) := by
  obtain ⟨u, last, htasks, hjob, -, hcourse⟩ := exists_alone s (job.revalidating place v) horizon
  have hgranted := @granted_alone s horizon (job.revalidating place v) u
    (Job.needsSlot_revalidating hneeds) hcapacity harrives harrival htasks
  rw [Job.arrival_revalidating] at hgranted
  -- up to the source it goes the same way, and then the list is recognised
  have hfetches' : Fate.Fetches u.job job.arrival (job.arrival + budget) parsed source got := by
    rw [hjob]
    obtain ⟨hparse, hstart, hdownload, hfinish⟩ := hfetches
    exact ⟨hparse, hstart, hdownload, hfinish⟩
  have hcovers : Validator.covers u.job.request.fields
      (Validator.calculate source parsed.transform) = true := by
    rw [hjob]
    exact Validator.covers_of_lists Job.mem_values_revalidating hlists
  have hended : u.hasEnded = true := by
    apply (stoppedAt_serve s [job.revalidating place v] horizon).hasEnded (by simp [htasks])
    intro hopen
    obtain ⟨q, hq, htick⟩ := (hcourse.fated hgranted hstart
      (Nat.le_add_right _ _)).exists_pending hopen
    rw [hfetches'.unchanged hetags hcovers, Fate.after_finish] at htick
    have htick_got : q.tick ≤ got := htick
    exact ⟨q, hq, htick_got.trans (hgot.trans hfinish)⟩
  refine ⟨u, htasks, ?_⟩
  apply hcourse.revalidated hgranted hstart hfetches' hetags hcovers hgot _ hended
  rw [hjob, Job.cancelAt_revalidating]
  exact hcancel

/-- A client that has got an image with a validator and asks again with the validator in a list is told
that its copy is good, by the time at which it got the image, and nothing is processed for it. A client
that sends no list is never told so. -/
theorem revalidated_of_served {c : Config} {epoch : Nat} :
    (∀ (job : Job) (horizon : Nat) (t : Task) (finish : Nat) (resp : Http.Response) (e v : Bytes)
      (place : Nat),
      (serve (.ofConfig c epoch) [job] horizon).tasks = [t] →
      t.outcome? = some (.response finish resp) → resp.status = .ok → ("etag", e) ∈ resp.fields →
      Validator.Lists v e →
      ∃ u, (serve (.ofConfig c epoch) [job.revalidating place v] horizon).tasks = [u] ∧
        Revalidated u finish e) ∧
    ∀ (jobs : List Job) (r : Run), Reachable (.ofConfig c epoch) jobs r → ∀ t ∈ r.tasks,
      Http.Fields.values "if-none-match" t.job.request.fields = [] → Unlisted t := by
  have hlimit := Service.writeTimeout_ofConfig c epoch
  constructor
  · intro job horizon t finish resp e v place htasks ho hok he hlists
    have hphase := Task.outcome?_eq_some_iff.mp ho
    obtain ⟨t', last, htasks', rfl, hlast, hcourse⟩ := exists_alone (.ofConfig c epoch) job horizon
    obtain rfl : t' = t := List.singleton_inj.mp (htasks'.symm.trans htasks)
    obtain ⟨grant, parsed, source, got, data, r, hserved⟩ := hcourse.served hlimit hphase hok he
    obtain rfl : finish = last := ((hcourse.stay hserved.granted).response hphase).1
    obtain ⟨harrives, harrival⟩ := hcourse.arrives hphase
    have hcapacity := hcourse.capacity_pos hserved.granted
    have hgranted := granted_alone hserved.needsSlot hcapacity harrives (harrival.trans hlast) htasks
    obtain rfl := Option.some.inj (hserved.granted.symm.trans hgranted)
    rw [hserved.validator] at hlists ⊢
    exact exists_revalidated hserved.needsSlot hcapacity harrives (harrival.trans hlast)
      hserved.start hserved.fetches hserved.etags hlists hserved.got_le hlast
      (fun _ hc => hcourse.le_cancelAt hc)
  · intro jobs r hreach t ht hnone
    obtain ⟨last, -, hcourse⟩ := hreach.sound.course t ht
    exact hcourse.unlisted hlimit hnone

/-- An image that comes after five milliseconds is not processed again for a client that sends its
validator back as a weak one, between another one and a blank. -/
theorem revalidated_of_imageJob :
    let s := Service.ofConfig validating 0
    let job := imageJob 0 ⟨some 5, .ok [1]⟩
    let e := Utf8.encode (Validator.calculate [1] .standard)
    (∃ t resp, (serve s [job] 20).tasks = [t] ∧ t.outcome? = some (.response 5 resp) ∧
      resp.status = .ok ∧ ("etag", e) ∈ resp.fields ∧ Unlisted t) ∧
    ∃ u, (serve s [job.revalidating 0 (Utf8.ofString "\"x\", W/" ++ e ++ [0x20])] 20).tasks = [u] ∧
      Revalidated u 5 e := by
  intro s job e
  obtain ⟨hagain, hunlisted⟩ := @revalidated_of_served validating 0
  obtain ⟨t, -, htasks, hjob, -⟩ := exists_alone s job 20
  have htold : (serve s [job] 20).tasks.map (fun t => t.answer?.map fun a =>
      (a.1, a.2.status, Http.Fields.values "etag" a.2.fields)) = [some (5, .ok, [e])] := by
    decide +kernel
  rw [htasks] at htold
  obtain ⟨⟨finish, resp⟩, hanswer, hread⟩ := Option.map_eq_some_iff.mp (List.singleton_inj.mp htold)
  obtain ⟨rfl, hread⟩ := Prod.mk.inj hread
  obtain ⟨hok, hvalues⟩ := Prod.mk.inj hread
  have ho := Task.outcome?_of_answer? hanswer
  have he : ("etag", e) ∈ resp.fields := by
    rw [← Http.Fields.mem_values, hvalues]
    exact List.mem_singleton_self e
  have hlists : Validator.Lists (Utf8.ofString "\"x\", W/" ++ e ++ [0x20]) e := by
    have hfront : Utf8.ofString "\"x\", W/" =
        Utf8.ofString "\"x\"" ++ [0x2C, 0x20] ++ Utf8.ofString "W/" := by decide +kernel
    constructor
    · have hvisible : Http.IsVisible e :=
        Http.isVisible_encode fun c hc => (Validator.isMark_calculate hc).1
      have hends : Http.IsVisible (Utf8.ofString "\"x\", W/") ∧ Http.IsVisible [0x20] := by
        unfold Http.IsVisible
        decide +kernel
      intro b hb
      rcases List.mem_append.mp hb with hb | hb
      · exact (List.mem_append.mp hb).elim (hends.1 b) (hvisible b)
      · exact hends.2 b hb
    · refine ⟨[Utf8.ofString "\"x\""], [], [0x20], Utf8.ofString "W/" ++ e, [0x20], ?_, by simp,
        .inr rfl⟩
      rw [hfront]
      simp [Text.join]
  have ht : t ∈ (serve s [job] 20).tasks := by
    rw [htasks]
    exact List.mem_singleton_self t
  constructor
  · exact ⟨t, resp, htasks, ho, hok, he,
      hunlisted [job] _ (reachable_serve s [job] 20) t ht (by rw [hjob]; rfl)⟩
  · exact hagain job 20 t 5 resp e _ 0 htasks ho hok he hlists

end Run

end Gateway
