import Mathlib
import Gateway.Service.Stage

/-!
# Internal text in the stages

Failures and faults carry text that is meant for the log. To redact them is to leave this text out: of a
failure the kind, the status and the public message remain, and of a fault from outside nothing does,
neither its own text nor its causes. Two requests with the same redaction are the same to a client, and
so are their collaborators.

The stages only ever copy internal text into the log. So whenever two requests agree up to redaction,
each stage takes the same turn for both up to redaction: the same events apart from the messages of
logged failures, the same shared state, and the same place to stop. The lemmas follow the stages from
the end (`Stage.leave_congr`) to the beginning (`Stage.arrive_congr`), and `Stage.fire_congr` and
`Stage.cancel_congr` sum them up.
-/

namespace Gateway

/-! ## Redaction -/

/-- A failure without its internal message. -/
def Failure.redact (f : Failure) : Failure := { f with message := "" }

/-- A fault without its internal text. Of a fault from outside nothing is left, whatever has caused
it. -/
def Fault.redact : Fault → Fault
  | .known f => .known f.redact
  | .foreign _ => .foreign ""
  | .causedBy _ _ => .foreign ""

/-- A call whose failure, if it fails, is redacted. -/
def Call.redact {α : Type} (c : Call α) : Call α := ⟨c.delay, c.answer.mapError Fault.redact⟩

/-- Collaborators that report redacted faults. -/
def Collaborators.redact (c : Collaborators) : Collaborators where
  parse target := (c.parse target).mapError Fault.redact
  download := c.download.redact
  process source := (c.process source).redact
  reportsProcessed := c.reportsProcessed

/-- A request whose collaborators report redacted faults. -/
def Job.redact (job : Job) : Job := { job with collaborators := job.collaborators.redact }

/-- An entry of the log without internal text. -/
def LogEntry.redact : LogEntry → LogEntry
  | .failed f => .failed f.redact
  | entry => entry

/-- An event without internal text. Only entries of the log have any. -/
def Event.redact : Event → Event
  | .log entry => .log entry.redact
  | e => e

/-- A place to stop without internal text. A response has none. -/
def Phase.redact : Phase → Phase
  | .downloading v tick result => .downloading v tick (result.mapError Failure.redact)
  | .processing v source tag tick result =>
    .processing v source tag tick (result.mapError Failure.redact)
  | p => p

/-- A turn without internal text. -/
def Turn.redact (t : Turn) : Turn := ⟨t.shared, t.events.map Event.redact, t.phase.redact⟩

/-- Two results that agree up to what is done to their errors are the same value or two errors. -/
lemma mapError_eq_mapError {ε ε' α : Type} {f : ε → ε'} {x y : Except ε α}
    (h : x.mapError f = y.mapError f) :
    (∃ a, x = .ok a ∧ y = .ok a) ∨ ∃ e e', x = .error e ∧ y = .error e' ∧ f e = f e' := by
  rcases x with e | a <;> rcases y with e' | b
  · exact .inr ⟨e, e', rfl, rfl, Except.error.inj h⟩
  · cases h
  · cases h
  · obtain rfl : a = b := Except.ok.inj h
    exact .inl ⟨a, rfl, rfl⟩

/-- Where a request stops up to internal text tells where it stops, but for the failure of the call that
it waits for. -/
lemma Phase.redact_cases {p p' : Phase} (h : p.redact = p'.redact) :
    p = p' ∨
    (∃ v tick x y, p = .downloading v tick x ∧ p' = .downloading v tick y ∧
      x.mapError Failure.redact = y.mapError Failure.redact) ∨
    ∃ v source tag tick x y, p = .processing v source tag tick x ∧
      p' = .processing v source tag tick y ∧
      x.mapError Failure.redact = y.mapError Failure.redact := by
  cases p with
  | expected | queued | ended =>
    cases p' <;> cases h
    exact .inl rfl
  | downloading v tick x =>
    rcases p' with _ | _ | ⟨v', tick', y⟩ | _ | _
    · cases h
    · cases h
    · obtain ⟨rfl, rfl, hresult⟩ := Phase.downloading.inj h
      exact .inr (.inl ⟨v, tick, x, y, rfl, rfl, hresult⟩)
    · cases h
    · cases h
  | processing v source tag tick x =>
    rcases p' with _ | _ | _ | ⟨v', source', tag', tick', y⟩ | _
    · cases h
    · cases h
    · cases h
    · obtain ⟨rfl, rfl, rfl, rfl, hresult⟩ := Phase.processing.inj h
      exact .inr (.inr ⟨v, source, tag, tick, x, y, rfl, rfl, hresult⟩)
    · cases h

/-- Requests that agree up to redaction ask for the same. -/
lemma Job.request_congr {job job' : Job} (h : job.redact = job'.redact) :
    job.request = job'.request :=
  (Job.mk.inj h).1

/-- What a client is told of a failure does not depend on its internal message. -/
lemma ofFailure_congr {f f' : Failure} (h : f.redact = f'.redact) :
    Http.Response.ofFailure f = Http.Response.ofFailure f' := by
  change Http.Response.ofFailure f.redact = Http.Response.ofFailure f'.redact
  rw [h]

/-- Faults that agree up to their internal text amount to failures that do. -/
lemma classify_congr {x y : Fault} (h : x.redact = y.redact) :
    x.classify.redact = y.classify.redact := by
  have hclassify : ∀ z : Fault, z.classify.redact = z.redact.classify.redact := by
    intro z
    cases z <;> rfl
  rw [hclassify x, hclassify y, h]

/-- Calls that agree up to internal text end at the same time, with results that agree. -/
lemma run_congr {α : Type} {c c' : Call α} (h : c.redact = c'.redact) (d : Deadline) (now : Nat) :
    (d.run now c).1 = (d.run now c').1 ∧
      (d.run now c).2.mapError Failure.redact = (d.run now c').2.mapError Failure.redact := by
  obtain ⟨delay, answer⟩ := c
  obtain ⟨delay', answer'⟩ := c'
  obtain ⟨rfl, hanswer⟩ := Call.mk.inj h
  rcases mapError_eq_mapError hanswer with ⟨a, rfl, rfl⟩ | ⟨x, y, rfl, rfl, hfault⟩
  · exact ⟨rfl, rfl⟩
  · simp only [Deadline.run]
    split
    · exact ⟨rfl, congrArg Except.error (classify_congr hfault)⟩
    · exact ⟨rfl, rfl⟩

/-- Turns that agree up to internal text still do after some events. -/
lemma Turn.after_congr {a b : Turn} (h : a.redact = b.redact) (es : List Event) :
    (Turn.after es a).redact = (Turn.after es b).redact := by
  obtain ⟨hshared, hevents, hphase⟩ := Turn.mk.inj h
  simp only [Turn.redact, Turn.after, List.map_append, hshared, hevents, hphase]

namespace Stage

variable {s : Service} {job job' : Job} {i now : Nat} {shared : Shared} {v : Visit}

/-! ## From the end to the beginning -/

/-- A request that fails leaves in the same way whatever the internal message is. -/
lemma leave_congr {f f' : Failure} (h : f.redact = f'.redact) (hasImage : Bool) :
    (leave s i now hasImage shared (.error f)).redact =
      (leave s i now hasImage shared (.error f')).redact := by
  simp only [leave, Turn.redact, List.map_append, List.map_cons, Event.redact, LogEntry.redact, h,
    ofFailure_congr h]

section

variable (hjob : job.redact = job'.redact)
include hjob

lemma encode_congr (tag : Option (List Char)) (data : Bytes) :
    encode s job i now shared v tag data = encode s job' i now shared v tag data := by
  have hrequest := Job.request_congr hjob
  simp only [encode, hrequest]

lemma afterProcess_congr (tag : Option (List Char)) {x y : Except Failure Bytes}
    (h : x.mapError Failure.redact = y.mapError Failure.redact) :
    (afterProcess s job i now shared v tag x).redact =
      (afterProcess s job' i now shared v tag y).redact := by
  have hreports : job.collaborators.reportsProcessed = job'.collaborators.reportsProcessed :=
    (Collaborators.mk.inj (Job.mk.inj hjob).2.1).2.2.2
  rcases mapError_eq_mapError h with ⟨data, rfl, rfl⟩ | ⟨f, f', rfl, rfl, hfailure⟩
  · simp only [afterProcess, hreports, encode_congr hjob]
  · exact Turn.after_congr (leave_congr hfailure true) _

lemma startProcess_congr (source : Bytes) (tag : Option (List Char)) :
    (startProcess s job i now shared v source tag).redact =
      (startProcess s job' i now shared v source tag).redact := by
  have hcall : (job.collaborators.process source).redact =
      (job'.collaborators.process source).redact :=
    congrFun (congrArg Collaborators.process (Job.mk.inj hjob).2.1) source
  obtain ⟨hending, hresult⟩ := run_congr hcall v.deadline (instantOf now)
  simp only [startProcess, hending]
  split
  · rfl
  · refine Turn.after_congr ?_ _
    split
    · exact afterProcess_congr hjob tag hresult
    · simp only [Turn.redact, Phase.redact, hresult]

lemma compare_congr (source : Bytes) :
    (compare s job i now shared v source).redact =
      (compare s job' i now shared v source).redact := by
  have hrequest := Job.request_congr hjob
  simp only [compare, hrequest]
  split
  · split
    · rfl
    · exact startProcess_congr hjob source _
  · exact startProcess_congr hjob source none

lemma afterDownload_congr {x y : Except Failure Bytes}
    (h : x.mapError Failure.redact = y.mapError Failure.redact) :
    (afterDownload s job i now shared v x).redact =
      (afterDownload s job' i now shared v y).redact := by
  rcases mapError_eq_mapError h with ⟨source, rfl, rfl⟩ | ⟨f, f', rfl, rfl, hfailure⟩
  · refine Turn.after_congr ?_ _
    split
    · rfl
    · exact compare_congr hjob source
  · exact Turn.after_congr (leave_congr hfailure false) _

lemma startDownload_congr :
    (startDownload s job i now shared v).redact = (startDownload s job' i now shared v).redact := by
  have hcall : job.collaborators.download.redact = job'.collaborators.download.redact :=
    congrArg Collaborators.download (Job.mk.inj hjob).2.1
  obtain ⟨hending, hresult⟩ := run_congr hcall v.deadline (instantOf now)
  simp only [startDownload, hending]
  split
  · rfl
  · refine Turn.after_congr ?_ _
    split
    · exact afterDownload_congr hjob hresult
    · simp only [Turn.redact, Phase.redact, hresult]

lemma admitted_congr :
    (admitted s job i now shared).redact = (admitted s job' i now shared).redact := by
  have hrequest := Job.request_congr hjob
  have hparse : (job.collaborators.parse job.request.target).mapError Fault.redact =
      (job'.collaborators.parse job.request.target).mapError Fault.redact :=
    congrFun (congrArg Collaborators.parse (Job.mk.inj hjob).2.1) job.request.target
  rw [admitted, admitted, ← hrequest]
  refine Turn.after_congr ?_ _
  split
  · rfl
  · refine Turn.after_congr ?_ _
    rcases mapError_eq_mapError hparse with ⟨parsed, hx, hy⟩ | ⟨x, y, hx, hy, hfault⟩
    · rw [hx, hy]
      exact startDownload_congr hjob
    · rw [hx, hy]
      exact leave_congr (classify_congr hfault) false

/-! ## Turns -/

lemma arrive_congr :
    (arrive s job i now shared).redact = (arrive s job' i now shared).redact := by
  have hrequest := Job.request_congr hjob
  rw [arrive, arrive, hrequest]
  refine Turn.after_congr ?_ _
  split
  · rfl
  · split
    · rfl
    · split
      · rfl
      · split
        · rfl
        · refine Turn.after_congr ?_ _
          split
          · exact admitted_congr hjob
          · rfl

/-- A request resumes in the same way up to internal text. -/
lemma resume_congr :
    (resume s job i now shared).redact = (resume s job' i now shared).redact :=
  admitted_congr hjob

/-- A timer has the same effect up to internal text. -/
lemma fire_congr {p p' : Phase} (hp : p.redact = p'.redact) :
    (fire s job i now shared p).redact = (fire s job' i now shared p').redact := by
  rcases Phase.redact_cases hp with rfl | ⟨v, tick, x, y, rfl, rfl, hresult⟩ |
    ⟨v, source, tag, tick, x, y, rfl, rfl, hresult⟩
  · cases p with
    | expected => exact arrive_congr hjob
    | queued | ended => rfl
    | downloading v tick result => exact afterDownload_congr hjob rfl
    | processing v source tag tick result => exact afterProcess_congr hjob tag rfl
  · exact afterDownload_congr hjob hresult
  · exact afterProcess_congr hjob tag hresult

end

/-- A cancellation has the same effect up to internal text. -/
lemma cancel_congr {p p' : Phase} (hp : p.redact = p'.redact) :
    (cancel i shared p).redact = (cancel i shared p').redact := by
  rcases Phase.redact_cases hp with rfl | ⟨v, tick, x, y, rfl, rfl, -⟩ |
    ⟨v, source, tag, tick, x, y, rfl, rfl, -⟩ <;> rfl

end Stage

end Gateway
