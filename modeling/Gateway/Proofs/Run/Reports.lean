import Mathlib
import Gateway.Proofs.Run.Success

/-!
# Responses in the log

Among everything that is seen of a request the entries with a status are the reports about its response
(`Task.reports`). They are those of its effects that tell of a success or of a failure, so that the ways in
which a request can end also say what has been reported. A request that has been answered is reported once,
with the status of its response and at the level that belongs to it (`Run.reports_of_answered`), unless it
has asked for the health of the gateway: such an answer leaves no report at all.
-/

namespace Gateway

/-- The level at which a response with a status belongs in the log. -/
def Level.ofStatus (status : Http.Status) : Level :=
  if 500 ≤ status.code then .error else if 400 ≤ status.code then .warn else .info

lemma Severity.level_ofStatus (status : Http.Status) :
    (Severity.ofStatus status).level = .ofStatus status := by
  unfold Severity.ofStatus Level.ofStatus
  split_ifs <;> rfl

/-- What an event reports about a response: the status and the level of the entry. -/
def Event.report? : Event → Option (Http.Status × Level)
  | .log entry => entry.status?.map fun status => (status, entry.level)
  | _ => none

/-- The report that an effect stands for. -/
def Effect.report? : Effect → Option (Http.Status × Level)
  | .succeeded status => some (status, .ofStatus status)
  | .failed status => some (status, .ofStatus status)
  | _ => none

/-- What has been reported about the response to a request. -/
def Task.reports (t : Task) : List (Http.Status × Level) := t.events.filterMap Event.report?

/-- An event reports what its effect stands for. -/
lemma Event.report?_eq (x : Event) : x.report? = x.effect?.bind Effect.report? := by
  cases x with
  | log entry =>
    cases entry with
    | responded status | failed f =>
      simp only [report?, effect?, LogEntry.status?, LogEntry.level, Severity.level_ofStatus]
      rfl
    | requestStarted | originIgnored => rfl
  | _ => rfl

lemma Task.reports_eq (t : Task) : t.reports = t.effects.filterMap Effect.report? := by
  rw [effects, effectsOf, List.filterMap_filterMap, reports, funext Event.report?_eq]

/-- Whether a request asks for the health of the gateway and is told so. -/
def Stage.AsksHealth (s : Service) (request : Request) : Prop :=
  request.method = .get ∧ s.secret.admits request.fields = true ∧
    request.target.shown = "/health"

namespace Stage

variable {s : Service} {request : Request} {entries : List LogEntry} {resp : Http.Response}

lemma AsksHealth.not_needsSlot (h : AsksHealth s request) : ¬ NeedsSlot s request :=
  fun hneeds => hneeds.2.2 h.2.2

/-- Of the requests that are answered without admission those for the health are not reported. -/
lemma Shortcut.reports (h : Shortcut s request entries resp) :
    (AsksHealth s request ∧ entries = [] ∧ resp.status = .ok) ∨
      ¬ AsksHealth s request ∧
        (entries.map .log).filterMap Event.report? = [(resp.status, .ofStatus resp.status)] := by
  cases h with
  | options hmethod =>
    right
    refine ⟨fun hhealth => ?_, rfl⟩
    cases hmethod.symm.trans hhealth.1
  | method _ hother =>
    right
    exact ⟨fun hhealth => hother hhealth.1, rfl⟩
  | secret _ hadmits =>
    right
    refine ⟨fun hhealth => ?_, rfl⟩
    cases hadmits.symm.trans hhealth.2.1
  | health hget hadmits hshown => exact .inl ⟨⟨hget, hadmits, hshown⟩, rfl, rfl⟩

end Stage

namespace Task.Course

variable {s : Service} {last finish : Nat} {t : Task} {resp : Http.Response}

/-- A request that needs a slot and has been answered is reported once. -/
lemma reports_of_needsSlot (h : Course s last t) (hneeds : Stage.NeedsSlot s t.job.request)
    (hphase : t.phase = .ended (.response finish resp)) :
    t.reports = [(resp.status, .ofStatus resp.status)] := by
  have hexit : Exit s t.job (.response finish resp) t.effects := (hphase ▸ h.sofar).exit
  rw [reports_eq]
  generalize t.effects = xs at hexit
  cases hexit with
  | refused hnot => exact absurd hneeds hnot
  | succeeded => rfl
  | failed _ img => cases img <;> rfl

/-- A request that has been answered without admission is reported once, unless it has asked for the
health of the gateway. -/
lemma reports_of_shortcut (h : Course s last t) (hneeds : ¬ Stage.NeedsSlot s t.job.request)
    (hphase : t.phase = .ended (.response finish resp)) :
    (Stage.AsksHealth s t.job.request ∧ t.reports = [] ∧ resp.status = .ok) ∨
      ¬ Stage.AsksHealth s t.job.request ∧ t.reports = [(resp.status, .ofStatus resp.status)] := by
  obtain ⟨entries, short, hshort⟩ := Stage.exists_shortcut_iff.mpr hneeds
  have hbrief := h.arrival.brief hshort
  have hevents : t.events = (.requestStarted t.job.request.target.shown :: entries).map .log ∧
      resp.status = short.status := by
    generalize t.job = job at hbrief hshort
    cases hbrief with
    | expected | dropped => cases hphase
    | answered =>
      obtain ⟨-, rfl⟩ := Outcome.response.inj (Phase.ended.inj hphase)
      refine ⟨?_, rfl⟩
      simp [events]
  obtain ⟨hevents, hstatus⟩ := hevents
  have hreports : t.reports = (entries.map .log).filterMap Event.report? := by
    rw [reports, hevents]
    rfl
  rw [hreports, hstatus]
  rcases hshort.reports with ⟨hhealth, rfl, hok⟩ | ⟨hother, hentries⟩
  · exact .inl ⟨hhealth, rfl, hok⟩
  · exact .inr ⟨hother, hentries⟩

end Task.Course

namespace Run

/-- A request that has been answered in a run is reported once, with the status of its response and at the
level that belongs to this status. Only the answer about the health of the gateway is not reported. -/
theorem reports_of_answered {s : Service} {jobs : List Job} {r : Run} (hreach : Reachable s jobs r)
    {t : Task} (ht : t ∈ r.tasks) {finish : Nat} {resp : Http.Response}
    (ho : t.outcome? = some (.response finish resp)) :
    (¬ Stage.AsksHealth s t.job.request → t.reports = [(resp.status, .ofStatus resp.status)]) ∧
      (Stage.AsksHealth s t.job.request → t.reports = [] ∧ resp.status = .ok) := by
  obtain ⟨last, -, hcourse⟩ := hreach.sound.course t ht
  have hphase := Task.outcome?_eq_some_iff.mp ho
  by_cases hneeds : Stage.NeedsSlot s t.job.request
  · constructor
    · intro _
      exact hcourse.reports_of_needsSlot hneeds hphase
    · intro hhealth
      exact absurd hneeds hhealth.not_needsSlot
  · rcases hcourse.reports_of_shortcut hneeds hphase with ⟨hhealth, hnone⟩ | ⟨hother, hreport⟩
    · exact ⟨fun hnot => absurd hhealth hnot, fun _ => hnone⟩
    · exact ⟨fun _ => hreport, fun hhealth => absurd hhealth hother⟩

/-- A request that times out is reported as an error, and the one that gets its slot is reported as a
success. -/
theorem reports_of_rivals :
    let r := serve (.ofConfig oneSlot 0) rivals 20000
    (∃ t ∈ r.tasks, ∃ resp, t.outcome? = some (.response 10000 resp) ∧
      t.reports = [(.unavailable, .error)]) ∧
    ∃ t ∈ r.tasks, ∃ resp, t.outcome? = some (.response 10005 resp) ∧
      t.reports = [(.ok, .info)] := by
  intro r
  have hreach : Reachable (.ofConfig oneSlot 0) rivals r := reachable_serve _ _ _
  have hother : ∀ job ∈ rivals, ¬ Stage.AsksHealth (.ofConfig oneSlot 0) job.request := by
    intro job hjob hhealth
    have hshown : job.request.target.shown = "/plain/a" := by
      rcases List.mem_pair.mp hjob with rfl | rfl <;> rfl
    exact absurd (hshown.symm.trans hhealth.2.2) (by decide)
  obtain ⟨t, resp, ht, ho, hstatus⟩ := @exists_of_answer r 0 10000 .unavailable (by decide +kernel)
  obtain ⟨u, resp', hu, ho', hstatus'⟩ := @exists_of_answer r 1 10005 .ok (by decide +kernel)
  have hreports := (reports_of_answered hreach (List.mem_of_getElem? ht) ho).1
    (hother _ (List.mem_of_getElem? (hreach.sound.job ht)))
  have hreports' := (reports_of_answered hreach (List.mem_of_getElem? hu) ho').1
    (hother _ (List.mem_of_getElem? (hreach.sound.job hu)))
  rw [hstatus] at hreports
  rw [hstatus'] at hreports'
  exact ⟨⟨t, List.mem_of_getElem? ht, resp, ho, hreports⟩,
    u, List.mem_of_getElem? hu, resp', ho', hreports'⟩

/-- A request for the health of the gateway. -/
def healthJob : Job :=
  { imageJob 0 ⟨none, .ok []⟩ with request := ⟨.get, .resource "/health", []⟩ }

/-- There is an answer of which the log does not tell anything, the one about the health of the gateway. -/
theorem exists_answer_not_reported :
    ∃ t ∈ (serve (.ofConfig (Config.standard 1) 0) [healthJob] 10).tasks, ∃ resp,
      t.outcome? = some (.response 0 resp) ∧ resp.status = .ok ∧ t.reports = [] := by
  have hseen : ((serve (.ofConfig (Config.standard 1) 0) [healthJob] 10).tasks[0]?.bind fun t =>
      t.answer?.map fun a => (a.1, a.2.status, t.reports)) = some (0, .ok, []) := by
    decide +kernel
  obtain ⟨t, ht, hanswer⟩ := Option.bind_eq_some_iff.mp hseen
  obtain ⟨⟨finish, resp⟩, hanswer, heq⟩ := Option.map_eq_some_iff.mp hanswer
  obtain ⟨rfl, heq⟩ := Prod.mk.inj heq
  obtain ⟨hok, hreports⟩ := Prod.mk.inj heq
  exact ⟨t, List.mem_of_getElem? ht, resp, Task.outcome?_of_answer? hanswer, hok, hreports⟩

end Run

end Gateway
