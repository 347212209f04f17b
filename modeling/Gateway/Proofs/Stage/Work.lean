import Mathlib
import Gateway.Proofs.BufferPool.Circulation
import Gateway.Proofs.Deadline.Millis
import Gateway.Service.Stage

/-!
# What an admitted request does in one turn

A turn of an admitted request consists of some work and an ending: the request calls collaborators,
gets their answers, and then either stops to wait for one of them or leaves with a result. `Work` is
the grammar of such turns. It lists every event in its place and keeps the guards of the stages, so
that statements about turns go by induction on it and never look into the stages again.

The work and the ending do not depend on the shared state: `Works` says that one and the same pair
describes the turn whatever the other requests have left behind. The shared state only enters where a
request leaves (`Ending.turn`), in the number of slots that it publishes. The one place where this
needs an argument is the buffer in which a response is compressed: it comes from a pool that all
requests share, but it is emptied when it is taken (`compressIn_fst`).
-/

namespace Gateway

/-- What a request waits for while a collaborator is at work for it. -/
structure Pending where
  stage : Stage
  deadline : Deadline
  /-- The millisecond at which the call ends. -/
  tick : Nat
  result : Except Failure Bytes

/-- What a request waits for where it stops, if it waits for a collaborator. -/
def Phase.pending? : Phase → Option Pending
  | .downloading v tick result => some ⟨.download, v.deadline, tick, result⟩
  | .processing v _ _ tick result => some ⟨.processing, v.deadline, tick, result⟩
  | _ => none

namespace Stage

/-! ## Endings -/

/-- How the work of a turn ends. -/
inductive Ending where
  /-- The request stops and waits. -/
  | waits (p : Phase)
  /-- The request leaves with a result, with or without a downloaded image. -/
  | leaves (hasImage : Bool) (result : Except Failure (Http.Response × LogEntry))

namespace Ending

/-- What an observer sees of an ending. -/
def events (shared : Shared) : Ending → List Event
  | waits _ => []
  | leaves hasImage (.ok (_, entry)) => .log entry :: departureEvents shared hasImage
  | leaves hasImage (.error f) => departureEvents shared hasImage ++ [.log (.failed f)]

/-- Where the request stops after an ending. -/
def phase (s : Service) (now : Nat) : Ending → Phase
  | waits p => p
  | leaves _ (.ok (r, _)) => answered s now r
  | leaves _ (.error f) => answered s now (.ofFailure f)

/-- The shared state after an ending. -/
def shared (i : Nat) (shared : Shared) : Ending → Shared
  | waits _ => shared
  | leaves .. => departed shared i

/-- The turn that consists of some work and an ending. -/
def turn (s : Service) (i now : Nat) (shared : Shared) (w : List Event) (e : Ending) : Turn :=
  ⟨e.shared i shared, w ++ e.events shared, e.phase s now⟩

end Ending

/-- Leaving is the ending that leaves. -/
lemma leave_eq_turn (s : Service) (i now : Nat) (hasImage : Bool) (shared : Shared)
    (result : Except Failure (Http.Response × LogEntry)) :
    leave s i now hasImage shared result =
      (Ending.leaves hasImage result).turn s i now shared [] := by
  rcases result with f | ⟨r, entry⟩ <;> rfl

/-! ## The grammar of work -/

/-- Whether the image is there when a stage begins. -/
def hasImage : Gateway.Stage → Bool
  | .download => false
  | .processing => true

/-- The calls that may take time: at which stage they are made, and which event shows them. -/
inductive Asks (job : Job) (now : Nat) (d : Deadline) : Gateway.Stage → Event → Call Bytes → Prop
  | download (url : String) :
      Asks job now d .download
        (.downloadCalled url (Deadline.tickOf (d.remaining (instantOf now)).nanos))
        job.collaborators.download
  | process {source : Bytes} (hsource : job.collaborators.download.answer = .ok source) :
      Asks job now d .processing
        (.processCalled source.length (Deadline.tickOf (d.remaining (instantOf now)).nanos))
        (job.collaborators.process source)

/-- How far an admitted request has come. -/
inductive Point where
  /-- The call of a stage is still to be made. -/
  | before (stage : Gateway.Stage)
  /-- The call of a stage has ended. -/
  | after (stage : Gateway.Stage) (result : Except Failure Bytes)
  /-- All calls have been made, and the response is still to be encoded. -/
  | output

/-- The work of an admitted request in one turn, with its ending, from the point to which it has
come. -/
inductive Work (job : Job) (now : Nat) (d : Deadline) : Point → List Event → Ending → Prop
  /-- It fails before a call: the path cannot be read, or the deadline has expired. -/
  | fails {stage : Gateway.Stage} (f : Failure) :
      Work job now d (.before stage) [] (.leaves (hasImage stage) (.error f))
  /-- The client's copy is still good. -/
  | unchanged (tag : List Char) (message : String)
      (hopen : d.isExpired (instantOf now) = false) :
      Work job now d (.before .processing) [] (.leaves true
        (.ok (Encoder.notModified tag, .responded (Encoder.notModified tag).status message)))
  /-- A call is made that ends at once. -/
  | calls {stage : Gateway.Stage} {x : Event} {c : Call Bytes} {ending : Nat}
      {result : Except Failure Bytes} {w : List Event} {e : Ending}
      (hask : Asks job now d stage x c) (hopen : d.isExpired (instantOf now) = false)
      (hrun : d.run (instantOf now) c = (ending, result)) (htick : Deadline.tickOf ending = now)
      (hrest : Work job now d (.after stage result) w e) :
      Work job now d (.before stage) (x :: w) e
  /-- A call is made that takes time. -/
  | waits {stage : Gateway.Stage} {x : Event} {c : Call Bytes} {ending : Nat}
      {result : Except Failure Bytes} {p : Phase}
      (hask : Asks job now d stage x c) (hopen : d.isExpired (instantOf now) = false)
      (hrun : d.run (instantOf now) c = (ending, result)) (htick : Deadline.tickOf ending ≠ now)
      (hp : p.pending? = some ⟨stage, d, Deadline.tickOf ending, result⟩) :
      Work job now d (.before stage) [x] (.waits p)
  /-- A call has failed, which is counted. -/
  | counts (stage : Gateway.Stage) (f : Failure) :
      Work job now d (.after stage (.error f)) [.errorCounted stage]
        (.leaves (hasImage stage) (.error f))
  /-- The download has delivered. -/
  | downloaded {w : List Event} {e : Ending} (source : Bytes)
      (hrest : Work job now d (.before .processing) w e) :
      Work job now d (.after .download (.ok source)) (.downloaded source.length :: w) e
  /-- The processing has delivered, which is reported. -/
  | processed {w : List Event} {e : Ending} (data : Bytes) (hrest : Work job now d .output w e) :
      Work job now d (.after .processing (.ok data)) (.processed data.length :: w) e
  /-- The processing has delivered, which is not reported. -/
  | quiet {w : List Event} {e : Ending} (data : Bytes) (hrest : Work job now d .output w e) :
      Work job now d (.after .processing (.ok data)) w e
  /-- The response cannot be encoded, or the deadline has expired. -/
  | spoils (f : Failure) : Work job now d .output [] (.leaves true (.error f))
  /-- The image is encoded in time. -/
  | encodes (r : Http.Response) (message : String)
      (hopen : d.isExpired (instantOf now) = false) :
      Work job now d .output [] (.leaves true (.ok (r, .responded r.status message)))

/-- What is seen of some work: the calls, and what comes of them. -/
lemma Work.mem_cases {job : Job} {now : Nat} {d : Deadline} {k : Point} {w : List Event}
    {e : Ending} (h : Work job now d k w e) {x : Event} (hx : x ∈ w) :
    (∃ stage c, Asks job now d stage x c) ∨ (∃ stage, x = .errorCounted stage) ∨
      (∃ size, x = .downloaded size) ∨ ∃ size, x = .processed size := by
  induction h with
  | fails | unchanged | spoils | encodes => cases hx
  | calls hask _ _ _ _ ih =>
    rcases List.mem_cons.mp hx with rfl | hx
    · exact .inl ⟨_, _, hask⟩
    · exact ih hx
  | waits hask =>
    obtain rfl := List.mem_singleton.mp hx
    exact .inl ⟨_, _, hask⟩
  | counts stage => exact .inr (.inl ⟨stage, List.mem_singleton.mp hx⟩)
  | downloaded source _ ih =>
    rcases List.mem_cons.mp hx with rfl | hx
    · exact .inr (.inr (.inl ⟨_, rfl⟩))
    · exact ih hx
  | processed data _ ih =>
    rcases List.mem_cons.mp hx with rfl | hx
    · exact .inr (.inr (.inr ⟨_, rfl⟩))
    · exact ih hx
  | quiet _ _ ih => exact ih hx

/-- A turn amounts to some work and an ending, whoever takes it and whatever the others have left
behind. -/
def Amounts (s : Service) (now : Nat) (turn : Nat → Shared → Turn) (w : List Event)
    (e : Ending) : Prop :=
  ∀ i shared, ∃ pool, turn i shared = e.turn s i now { shared with pool := pool } w

/-- A turn is work of an admitted request. -/
def Works (s : Service) (job : Job) (now : Nat) (d : Deadline) (k : Point)
    (turn : Nat → Shared → Turn) : Prop :=
  ∃ w e, Work job now d k w e ∧ Amounts s now turn w e

section Combinators

variable {s : Service} {job : Job} {now : Nat} {d : Deadline} {turn : Nat → Shared → Turn}
  {w : List Event} {e : Ending}

/-- Events before a turn come before its work. -/
lemma Amounts.after (h : Amounts s now turn w e) (es : List Event) :
    Amounts s now (fun i shared => Turn.after es (turn i shared)) (es ++ w) e := by
  intro i shared
  obtain ⟨pool, hturn⟩ := h i shared
  refine ⟨pool, ?_⟩
  change Turn.after es (turn i shared) = _
  rw [hturn]
  simp only [Turn.after, Ending.turn, List.append_assoc]

/-- Leaving is an ending without work. -/
lemma amounts_leave (hasImage : Bool) (result : Except Failure (Http.Response × LogEntry)) :
    Amounts s now (fun i shared => leave s i now hasImage shared result) []
      (.leaves hasImage result) :=
  fun i shared => ⟨shared.pool, leave_eq_turn s i now hasImage shared result⟩

/-- A failure before a call ends the work. -/
lemma works_fails (stage : Gateway.Stage) (f : Failure) :
    Works s job now d (.before stage)
      (fun i shared => leave s i now (hasImage stage) shared (.error f)) :=
  ⟨[], _, .fails f, amounts_leave _ _⟩

/-- The failure of a call is counted and ends the work. -/
lemma works_counts (stage : Gateway.Stage) (f : Failure) :
    Works s job now d (.after stage (.error f)) (fun i shared =>
      Turn.after [.errorCounted stage] (leave s i now (hasImage stage) shared (.error f))) :=
  ⟨_, _, .counts stage f, (amounts_leave _ _).after [.errorCounted stage]⟩

/-- A failure while the response is made ends the work. -/
lemma works_spoils (f : Failure) :
    Works s job now d .output (fun i shared => leave s i now true shared (.error f)) :=
  ⟨[], _, .spoils f, amounts_leave _ _⟩

/-- Work goes on after the deadline has been looked at, or it fails. -/
lemma works_check {k : Point} {img : Bool}
    (hfail : ∀ f, Works s job now d k (fun i shared => leave s i now img shared (.error f)))
    (h : d.isExpired (instantOf now) = false → Works s job now d k turn) :
    Works s job now d k (fun i shared =>
      match d.check (instantOf now) with
      | .error f => leave s i now img shared (.error f)
      | .ok () => turn i shared) := by
  cases hexpired : d.isExpired (instantOf now) with
  | true => simpa only [Deadline.check, hexpired, if_true] using hfail _
  | false =>
    simpa only [Deadline.check, hexpired, Bool.false_eq_true, if_false] using h hexpired

/-- A call that ends at once is followed by more work, and one that takes time ends the work. -/
lemma works_call {stage : Gateway.Stage} {x : Event} {c : Call Bytes}
    (p : Nat → Except Failure Bytes → Phase) (next : Except Failure Bytes → Nat → Shared → Turn)
    (hask : Asks job now d stage x c) (hopen : d.isExpired (instantOf now) = false)
    (hp : ∀ tick result, (p tick result).pending? = some ⟨stage, d, tick, result⟩)
    (hnext : ∀ ending result, d.run (instantOf now) c = (ending, result) →
      Works s job now d (.after stage result) (next result)) :
    Works s job now d (.before stage) (fun i shared =>
      Turn.after [x]
        (if Deadline.tickOf (d.run (instantOf now) c).1 = now then
          next (d.run (instantOf now) c).2 i shared
        else ⟨shared, [], p (Deadline.tickOf (d.run (instantOf now) c).1)
          (d.run (instantOf now) c).2⟩)) := by
  rcases hrun : d.run (instantOf now) c with ⟨ending, result⟩
  by_cases htick : Deadline.tickOf ending = now
  · -- the call ends in the millisecond in which it is made, and the turn goes on
    obtain ⟨w, e, hwork, hturn⟩ := hnext ending result hrun
    refine ⟨x :: w, e, .calls hask hopen hrun htick hwork, ?_⟩
    simp only [htick, if_true]
    exact hturn.after [x]
  · refine ⟨[x], .waits (p (Deadline.tickOf ending) result),
      .waits hask hopen hrun htick (hp _ _), fun i shared => ⟨shared.pool, ?_⟩⟩
    simp only [htick, if_false]
    rfl

end Combinators

end Stage

/-! ## Encoding -/

namespace Encoder

variable {gzip : Nat → Bytes → Bytes}

/-- A compressed body is the compressed data, whatever buffer was used. -/
lemma compressIn_fst (pool : BufferPool) (level : Nat) (data : Bytes) :
    (compressIn pool level data gzip).1 = gzip level data := by
  simp [compressIn, BufferPool.Buffer.append]

/-- The body of a response does not depend on the pool. -/
lemma encodeBody_fst (e : Encoder) (pool pool' : BufferPool) (request : Http.Fields)
    (data : Bytes) :
    (e.encodeBody pool request data gzip).1 = (e.encodeBody pool' request data gzip).1 := by
  unfold encodeBody
  split
  · simp only [compressIn_fst]
  · rfl

/-- A response does not depend on the pool. -/
lemma image_fst (e : Encoder) (pool pool' : BufferPool) (now : Nat) (request : Http.Fields)
    (t : Image.Transform) (source : String) (tag : Option (List Char)) (data : Bytes) :
    (e.image pool now request t source tag data gzip).1 =
      (e.image pool' now request t source tag data gzip).1 := by
  unfold image
  split
  · rfl
  · simp only [encodeBody_fst e pool pool']

/-- A response with an image has the status for success. -/
lemma status_of_image {e : Encoder} {pool : BufferPool} {now : Nat} {request : Http.Fields}
    {t : Image.Transform} {source : String} {tag : Option (List Char)} {data : Bytes}
    {r : Http.Response} (h : (e.image pool now request t source tag data gzip).1 = .ok r) :
    r.status = .ok := by
  unfold image at h
  split at h
  · cases h
  · obtain rfl := Except.ok.inj h
    rfl

/-- The answer to a client with a good copy has the status for that. -/
lemma status_notModified (tag : List Char) : (notModified tag).status = .notModified := by
  unfold notModified
  split <;> rfl

end Encoder

/-! ## The stages -/

namespace Stage

variable {s : Service} {job : Job} {now : Nat} {v : Visit}

/-- A request leaves with what the encoder makes of its image. The pool decides which buffer is used,
but not what is in the response. -/
lemma encode_eq_leave (s : Service) (job : Job) (i now : Nat) (shared : Shared) (v : Visit)
    (tag : Option (List Char)) (data : Bytes) :
    encode s job i now shared v tag data = leave s i now true
      { shared with pool := (s.encoder.image shared.pool (s.dateAt now) job.request.fields
        v.parsed.transform v.parsed.sourceUrl tag data s.gzip).2 }
      ((s.encoder.image Encoder.freshPool (s.dateAt now) job.request.fields v.parsed.transform
        v.parsed.sourceUrl tag data s.gzip).1.map fun r => (r, .responded .ok (servedMessage v now))) := by
  rw [Encoder.image_fst s.encoder Encoder.freshPool shared.pool]
  rfl

/-- Encoding ends the work, in a response or a failure. -/
lemma works_encode (tag : Option (List Char)) (data : Bytes)
    (hopen : v.deadline.isExpired (instantOf now) = false) :
    Works s job now v.deadline .output
      (fun i shared => encode s job i now shared v tag data) := by
  rcases himage : (s.encoder.image Encoder.freshPool (s.dateAt now) job.request.fields
      v.parsed.transform v.parsed.sourceUrl tag data s.gzip).1 with f | r
  · refine ⟨[], .leaves true (.error f), .spoils f, fun i shared => ?_⟩
    have hturn := encode_eq_leave s job i now shared v tag data
    rw [himage] at hturn
    exact ⟨_, hturn.trans (leave_eq_turn ..)⟩
  · refine ⟨[], .leaves true (.ok (r, .responded r.status (servedMessage v now))),
      .encodes r _ hopen, fun i shared => ?_⟩
    have hturn := encode_eq_leave s job i now shared v tag data
    rw [himage, ← Encoder.status_of_image himage] at hturn
    exact ⟨_, hturn.trans (leave_eq_turn ..)⟩

/-- The rest after processing is work. -/
lemma works_afterProcess (tag : Option (List Char)) (result : Except Failure Bytes) :
    Works s job now v.deadline (.after .processing result)
      (fun i shared => afterProcess s job i now shared v tag result) := by
  rcases result with f | data
  · exact works_counts .processing f
  · have hencode : Works s job now v.deadline .output (fun i shared =>
        match v.deadline.check (instantOf now) with
        | .error f => leave s i now true shared (.error f)
        | .ok () => encode s job i now shared v tag data) :=
      works_check works_spoils fun hopen => works_encode tag data hopen
    obtain ⟨w, e, hwork, hturn⟩ := hencode
    by_cases hreports : job.collaborators.reportsProcessed = true
    · refine ⟨_, e, .processed data hwork, ?_⟩
      simp only [afterProcess, hreports, if_true]
      exact hturn.after [.processed data.length]
    · refine ⟨w, e, .quiet data hwork, ?_⟩
      simp only [afterProcess, hreports]
      exact hturn.after []

/-- Processing is work. -/
lemma works_startProcess {source : Bytes} (tag : Option (List Char))
    (hsource : job.collaborators.download.answer = .ok source) :
    Works s job now v.deadline (.before .processing)
      (fun i shared => startProcess s job i now shared v source tag) :=
  works_check (works_fails .processing) fun hopen =>
    works_call (fun tick result => .processing v source tag tick result)
      (fun result i shared => afterProcess s job i now shared v tag result) (.process hsource) hopen
      (fun _ _ => rfl) fun _ result _ => works_afterProcess tag result

/-- What comes after the image has been looked at is work. -/
lemma works_compare {source : Bytes} (hsource : job.collaborators.download.answer = .ok source)
    (hopen : v.deadline.isExpired (instantOf now) = false) :
    Works s job now v.deadline (.before .processing)
      (fun i shared => compare s job i now shared v source) := by
  by_cases hetags : s.etags = true
  · simp only [compare, hetags, if_true]
    by_cases hcovers : Validator.covers job.request.fields
        (Validator.calculate source v.parsed.transform) = true
    · simp only [hcovers, if_true]
      have hstatus := Encoder.status_notModified (Validator.calculate source v.parsed.transform)
      rw [← hstatus]
      exact ⟨[], _, .unchanged _ _ hopen, amounts_leave true _⟩
    · simp only [hcovers]
      exact works_startProcess _ hsource
  · simp only [compare, hetags]
    exact works_startProcess _ hsource

/-- The rest after the download is work. -/
lemma works_afterDownload {result : Except Failure Bytes}
    (hsource : ∀ source, result = .ok source → job.collaborators.download.answer = .ok source) :
    Works s job now v.deadline (.after .download result)
      (fun i shared => afterDownload s job i now shared v result) := by
  rcases result with f | source
  · exact works_counts .download f
  · have hcompare : Works s job now v.deadline (.before .processing) (fun i shared =>
        match v.deadline.check (instantOf now) with
        | .error f => leave s i now true shared (.error f)
        | .ok () => compare s job i now shared v source) :=
      works_check (works_fails .processing) fun hopen => works_compare (hsource source rfl) hopen
    obtain ⟨w, e, hwork, hturn⟩ := hcompare
    exact ⟨_, e, .downloaded source hwork, hturn.after [.downloaded source.length]⟩

/-- The download is work. -/
lemma works_startDownload :
    Works s job now v.deadline (.before .download)
      (fun i shared => startDownload s job i now shared v) :=
  works_check (works_fails .download) fun hopen =>
    works_call (fun tick result => .downloading v tick result)
      (fun result i shared => afterDownload s job i now shared v result)
      (.download v.parsed.sourceUrl) hopen (fun _ _ => rfl) fun _ _ hrun =>
        works_afterDownload fun _ hok => Deadline.answer_of_run (hok ▸ hrun)

/-- A request that holds a slot works, unless its deadline is out of the range of the clock. -/
lemma admitted_works {d : Deadline}
    (hstart : Deadline.start? (instantOf now) s.writeTimeout = some d) :
    ∃ w e, Work job now d (.before .download) w e ∧ ∀ i shared, ∃ pool,
      admitted s job i now shared = e.turn s i now { shared with pool := pool }
        (.slotsInUse shared.admission.inUse :: .parseCalled :: w) := by
  have hadmitted {turn : Nat → Shared → Turn} (hworks : Works s job now d (.before .download) turn)
      (hrest : ∀ i shared, admitted s job i now shared =
        Turn.after [.slotsInUse shared.admission.inUse] (Turn.after [.parseCalled] (turn i shared))) :
      ∃ w e, Work job now d (.before .download) w e ∧ ∀ i shared, ∃ pool,
        admitted s job i now shared = e.turn s i now { shared with pool := pool }
          (.slotsInUse shared.admission.inUse :: .parseCalled :: w) := by
    obtain ⟨w, e, hwork, hturn⟩ := hworks
    refine ⟨w, e, hwork, fun i shared => ?_⟩
    obtain ⟨pool, heq⟩ := (hturn.after [.parseCalled]).after [.slotsInUse shared.admission.inUse]
      i shared
    exact ⟨pool, (hrest i shared).trans heq⟩
  rcases hparse : job.collaborators.parse job.request.target with fault | parsed
  · exact hadmitted (works_fails .download fault.classify) fun i shared => by
      simp only [admitted, hstart, hparse]
      rfl
  · exact hadmitted (works_startDownload (v := ⟨d, parsed⟩)) fun i shared => by
      simp only [admitted, hstart, hparse]

/-- A request whose deadline is out of the range of the clock is given up at once. -/
lemma admitted_panics {i : Nat} {shared : Shared}
    (hstart : Deadline.start? (instantOf now) s.writeTimeout = none) :
    admitted s job i now shared = ⟨departed shared i,
      .slotsInUse shared.admission.inUse :: departureEvents shared false, .ended .panicked⟩ := by
  rw [admitted, hstart]
  rfl

/-- Where a request waits for a collaborator, its timer sets off the work after the call. -/
lemma fire_works {p : Phase} {q : Pending} (hp : p.pending? = some q)
    (hsource : q.stage = .download → ∀ source, q.result = .ok source →
      job.collaborators.download.answer = .ok source) :
    Works s job now q.deadline (.after q.stage q.result)
      (fun i shared => fire s job i now shared p) := by
  cases p with
  | expected | queued | ended => cases hp
  | downloading v tick result =>
    obtain rfl := Option.some.inj hp
    exact works_afterDownload (hsource rfl)
  | processing v source tag tick result =>
    obtain rfl := Option.some.inj hp
    exact works_afterProcess tag result

end Stage

end Gateway
