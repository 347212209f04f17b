import Mathlib
import Gateway.Proofs.Run.Fate
import Gateway.Proofs.Run.Lockstep
import Gateway.Proofs.Stage.Redaction

/-!
# Internal text stays internal

What collaborators say about their failures is logged and goes nowhere else. Take two lists of requests
that agree up to redaction: their collaborators answer at the same times with the same values, and where
they fail, the failures differ at most in internal text, the faults from outside in everything. Then the
two runs go the same way (`Task.kept_agreesWith`): every request has the same outcome, down to the last byte of
its response, and what is seen of it differs at most in the messages of logged failures
(`Run.Discreet`).

In particular nothing of a fault from outside reaches a client, however it has come about: a request that
meets one is answered with the status for internal errors and a fixed text
(`Run.discreet_of_redact_eq`).
-/

namespace Gateway

/-! ## Two runs -/

namespace Task

/-- What is seen of a request, without internal text. -/
def redactedTrace (t : Task) : List (Nat × Event) := t.trace.map fun e => (e.1, e.2.redact)

/-- A request in the course of a run, without internal text. -/
def redact (t : Task) : Task := ⟨t.job.redact, t.phase.redact, t.redactedTrace⟩

lemma timer?_redact (t : Task) : t.redact.timer? = t.timer? := by
  obtain ⟨job, phase, trace⟩ := t
  cases phase <;> rfl

lemma outcome?_redact (t : Task) : t.redact.outcome? = t.outcome? := by
  obtain ⟨job, phase, trace⟩ := t
  cases phase <;> rfl

/-- Requests that agree up to internal text still do after turns that do. -/
lemma after_congr {t t' : Task} {a b : Turn} (ht : t.redact = t'.redact)
    (hturn : a.redact = b.redact) (now : Nat) :
    (t.after now a).redact = (t'.after now b).redact := by
  obtain ⟨hjob, -, htrace⟩ := Task.mk.inj ht
  obtain ⟨-, hevents, hphase⟩ := Turn.mk.inj hturn
  have hseen : (a.events.map fun x => (now, x)).map (fun e => (e.1, e.2.redact)) =
      (b.events.map fun x => (now, x)).map fun e => (e.1, e.2.redact) := by
    have htimes := congrArg (List.map fun x => (now, x)) hevents
    simpa only [List.map_map, Function.comp_def] using htimes
  simp only [redact, redactedTrace, after, moved, List.map_append, hseen, hjob, hphase]
  exact congrArg (Task.mk _ _ <| · ++ _) htrace

/-- Two requests differ in internal text at most. -/
def AgreesWith (t t' : Task) : Prop := t.redact = t'.redact

/-- Turns that agree up to internal text keep their requests so. -/
lemma AgreesWith.pairs {t t' : Task} {a b : Turn} (ht : t.AgreesWith t') (hturn : a.redact = b.redact) :
    Turn.Pairs AgreesWith t t' a b :=
  ⟨(Turn.mk.inj hturn).1, after_congr ht hturn⟩

/-- Requests that differ in internal text at most go the same way. -/
lemma kept_agreesWith (s : Service) : Kept s s AgreesWith where
  timer? {t t'} h := by rw [← t.timer?_redact, ← t'.timer?_redact, h]
  fire h _ _ _ := h.pairs (Stage.fire_congr (Task.mk.inj h).1 (Task.mk.inj h).2.1)
  cancel h _ _ := h.pairs (Stage.cancel_congr (Task.mk.inj h).2.1)
  resume h _ _ _ := h.pairs (Stage.resume_congr (Task.mk.inj h).1)

end Task

namespace Run

variable {jobs jobs' : List Job} {r r' : Run}

/-- Nothing but the messages of logged failures tells two runs apart. -/
structure Discreet (r r' : Run) : Prop where
  clock : r.clock = r'.clock
  /-- The slots and the buffers are in the same state. -/
  shared : r.shared = r'.shared
  /-- Each request has ended at the same time and in the same way, with the same response, or is still
  under way in both. -/
  outcomes : r.tasks.map Task.outcome? = r'.tasks.map Task.outcome?
  /-- The same has been seen of each request at the same times, up to internal text in the log. -/
  traces : r.tasks.map Task.redactedTrace = r'.tasks.map Task.redactedTrace

/-- Runs whose requests agree up to internal text differ in nothing else. -/
lemma discreet_of_lockstep (h : Lockstep Task.AgreesWith r r') : Discreet r r' where
  clock := h.clock
  shared := h.shared
  outcomes := by
    refine map_eq_of_forall₂ h.tasks ?_
    intro t t' ht
    rw [← t.outcome?_redact, ← t'.outcome?_redact, ht]
  traces := by
    refine map_eq_of_forall₂ h.tasks ?_
    intro t t' ht
    exact congrArg Task.trace ht

/-- Requests that agree up to redaction agree before they arrive. -/
lemma agreesWith_ofJob (h : jobs.map Job.redact = jobs'.map Job.redact) :
    List.Forall₂ (fun job job' => Task.AgreesWith (.ofJob job) (.ofJob job')) jobs jobs' := by
  rw [← List.forall₂_eq_eq_eq, List.forall₂_map_left_iff, List.forall₂_map_right_iff] at h
  exact h.imp fun _ _ hjob => congrArg Task.ofJob hjob

end Run

/-! ## Faults that reach a request -/

/-- Whether a fault comes from outside. What has caused it does not matter. -/
def Fault.IsForeign : Fault → Prop
  | .known _ => False
  | .foreign _ => True
  | .causedBy _ _ => True

/-- A fault from outside is told to a client as an internal error, in fixed words. -/
lemma Fault.IsForeign.response {fault : Fault} (h : fault.IsForeign) :
    Http.Response.ofFailure fault.classify = .plain .internalError "Internal error" := by
  cases fault with
  | known f => cases h
  | foreign text => rfl
  | causedBy text cause => rfl

/-- A call that fails by a limit is settled then. -/
lemma Call.settled_of_error {start delay limit : Nat} {fault : Fault} (hdue : start + delay ≤ limit)
    (late : Failure) : Call.settled ⟨some delay, .error fault⟩ start limit late =
      (start + delay, .error fault.classify) := by
  simp only [settled, hdue, if_true]
  rfl

/-- A value that comes of a call is the one that has been answered. -/
lemma Call.answer_of_settled {c : Call Bytes} {start limit : Nat} {late : Failure} {data : Bytes}
    (h : (c.settled start limit late).2 = .ok data) : c.answer = .ok data := by
  obtain ⟨delay, answer⟩ := c
  unfold settled at h
  split at h
  · split at h
    · rcases answer with fault | data'
      · cases h
      · exact congrArg Except.ok (Except.ok.inj h)
    · cases h
  · cases h

/-- Which faults a request that has to be done by a limit meets, and when: it has its path read and the
reader reports a fault, or it makes a call that reports one in time. -/
inductive Task.Meets (t : Task) (limit : Nat) (fault : Fault) : Nat → Prop
  | parse {start : Nat} (hx : (start, .parseCalled) ∈ t.visit)
      (hparse : t.job.collaborators.parse t.job.request.target = .error fault) :
      Meets t limit fault start
  | call {start delay : Nat} (hcall : t.Calls start ⟨some delay, .error fault⟩)
      (hdue : start + delay ≤ limit) : Meets t limit fault (start + delay)

namespace Fate

variable {s : Service} {job : Job} {grant limit start delay : Nat} {parsed : Parsed} {x : Event}
  {fault : Fault}

/-- Whether a request leaves at a millisecond because of a fault. -/
def FailsWith (f : Fate) (fault : Fault) (time : Nat) : Prop :=
  f.finish = time ∧ f.result = .error fault.classify

/-- Nobody is called once the processing is over. -/
lemma ofProcessed_no_calls {tag : Option (List Char)} {done : Nat} {result : Except Failure Bytes}
    (hx : (start, x) ∈ (ofProcessed s job grant limit parsed tag done result).seen) :
    x.isCall = false := by
  rcases result with f | data
  · simp only [ofProcessed, after_seen, leaves, List.append_nil, List.mem_singleton,
      Prod.mk.injEq] at hx
    rw [hx.2]
    rfl
  · have hnone : (if done = limit then leaves done true (.error (timeout grant limit))
        else leaves done true (encoded s job grant limit parsed tag data done)).seen = [] := by
      split <;> rfl
    rw [ofProcessed, after_seen, hnone, List.append_nil] at hx
    split at hx
    · obtain ⟨-, rfl⟩ := Prod.mk.inj (List.mem_singleton.mp hx)
      rfl
    · cases hx

/-- A request whose processing fails in time leaves because of that. -/
lemma ofProcess_fails {source : Bytes} {tag : Option (List Char)} {now : Nat}
    (hsource : job.collaborators.download.answer = .ok source)
    (hx : (start, x) ∈ (ofProcess s job grant limit parsed source tag now).seen)
    (hshows : Stage.Shows job x ⟨some delay, .error fault⟩) (hdue : start + delay ≤ limit) :
    (ofProcess s job grant limit parsed source tag now).FailsWith fault (start + delay) := by
  rw [ofProcess, after_seen, List.singleton_append] at hx
  rcases List.mem_cons.mp hx with heq | hx
  · obtain ⟨rfl, rfl⟩ := Prod.mk.inj heq
    generalize hc : (⟨some delay, .error fault⟩ : Call Bytes) = c at hshows
    cases hshows with
    | process _ _ hsource' =>
      obtain rfl := Except.ok.inj (hsource.symm.trans hsource')
      rw [ofProcess, ← hc, Call.settled_of_error hdue]
      exact ⟨rfl, rfl⟩
  · have hcall := hshows.isCall
    rw [ofProcessed_no_calls hx] at hcall
    cases hcall

/-- A request whose processing fails in time after its download leaves because of that. -/
lemma ofDownloaded_fails {done : Nat} {result : Except Failure Bytes}
    (hsource : ∀ source, result = .ok source → job.collaborators.download.answer = .ok source)
    (hx : (start, x) ∈ (ofDownloaded s job grant limit parsed done result).seen)
    (hshows : Stage.Shows job x ⟨some delay, .error fault⟩) (hdue : start + delay ≤ limit) :
    (ofDownloaded s job grant limit parsed done result).FailsWith fault (start + delay) := by
  have hcall := hshows.isCall
  rcases result with f | source
  · obtain ⟨-, rfl⟩ := Prod.mk.inj (List.mem_singleton.mp hx)
    cases hcall
  · rw [ofDownloaded, after_seen, List.singleton_append] at hx
    rcases List.mem_cons.mp hx with heq | hx
    · obtain ⟨-, rfl⟩ := Prod.mk.inj heq
      cases hcall
    · have hsource := hsource source rfl
      rw [ofDownloaded]
      unfold ofSource at hx ⊢
      simp only at hx ⊢
      split_ifs at hx ⊢
      · cases hx
      · cases hx
      · exact ofProcess_fails hsource hx hshows hdue
      · exact ofProcess_fails hsource hx hshows hdue

/-- A request whose download fails in time, or whose processing does afterwards, leaves because of
that. -/
lemma ofParsed_fails (hx : (start, x) ∈ (ofParsed s job grant limit parsed).seen)
    (hshows : Stage.Shows job x ⟨some delay, .error fault⟩) (hdue : start + delay ≤ limit) :
    (ofParsed s job grant limit parsed).FailsWith fault (start + delay) := by
  unfold ofParsed at hx ⊢
  simp only at hx ⊢
  split_ifs at hx ⊢
  · cases hx
  rw [after_seen, List.singleton_append] at hx
  rcases List.mem_cons.mp hx with heq | hx
  · obtain ⟨rfl, rfl⟩ := Prod.mk.inj heq
    generalize hc : (⟨some delay, .error fault⟩ : Call Bytes) = c at hshows
    cases hshows with
    | download =>
      rw [← hc, Call.settled_of_error hdue]
      exact ⟨rfl, rfl⟩
  · refine ofDownloaded_fails (fun source hok => ?_) hx hshows hdue
    exact Call.answer_of_settled hok

/-- A request that makes a call that fails in time leaves because of that. -/
lemma ofAdmitted_fails (hx : (start, x) ∈ (ofAdmitted s job grant limit).seen)
    (hshows : Stage.Shows job x ⟨some delay, .error fault⟩) (hdue : start + delay ≤ limit) :
    (ofAdmitted s job grant limit).FailsWith fault (start + delay) := by
  unfold ofAdmitted at hx ⊢
  rw [after_seen, List.singleton_append] at hx
  rcases List.mem_cons.mp hx with heq | hx
  · obtain ⟨-, rfl⟩ := Prod.mk.inj heq
    cases hshows
  · rcases hparse : job.collaborators.parse job.request.target with fault' | parsed
    · rw [hparse] at hx
      cases hx
    · rw [hparse] at hx
      exact ofParsed_fails hx hshows hdue

/-- A request that leaves calls nobody any more. -/
lemma closing_no_calls (f : Fate) (m : Nat) : ∀ y ∈ f.closing m, y.isCall = false := by
  rcases f with ⟨finish, seen, img, failure | ⟨resp, entry⟩⟩ <;>
    cases img <;> simp [closing, departure, Event.isCall]

end Fate

namespace Task

variable {s : Service} {job : Job} {grant limit start last time : Nat} {t : Task} {fault : Fault}

/-- Every call that a request has made belongs to its fate. -/
lemma Fated.mem_seen {v : List (Nat × Event)} {p : Phase} {x : Event}
    (h : Fated s job grant limit v p) (hx : (start, x) ∈ v) (hcall : x.isCall = true) :
    (start, x) ∈ (Fate.ofAdmitted s job grant limit).seen := by
  have hentry (n : Nat) : (start, x) ≠ (grant, .slotsInUse n) := by
    intro heq
    rw [(Prod.mk.inj heq).2] at hcall
    cases hcall
  have hlast {es : List Event} (hes : ∀ y ∈ es, y.isCall = false) (now : Nat) :
      (start, x) ∉ es.map fun y => (now, y) := by
    intro hmem
    rw [hes x (mem_map_time.mp hmem).2] at hcall
    cases hcall
  cases h with
  | inside n hrest hfate =>
    have hmem := (List.mem_cons.mp hx).resolve_left (hentry n)
    rw [hfate, Fate.after_seen]
    exact List.mem_append_left _ hmem
  | left n m hfate =>
    have hmem := (List.mem_cons.mp hx).resolve_left (hentry n)
    rw [hfate]
    exact (List.mem_append.mp hmem).resolve_right (hlast (Fate.closing_no_calls _ m) _)
  | cancelled n m img hcancel hseen hlt =>
    have hmem := (List.mem_cons.mp hx).resolve_left (hentry n)
    have hquiet : ∀ y ∈ Fate.departure img m, y.isCall = false := by
      cases img <;> simp [Fate.departure, Event.isCall]
    exact hseen.subset ((List.mem_append.mp hmem).resolve_right (hlast hquiet _))

/-- A request that meets a fault is fated to leave because of it. -/
lemma Fated.fails (h : Fated s t.job grant limit t.visit t.phase) (hfault : t.Meets limit fault time) :
    (Fate.ofAdmitted s t.job grant limit).FailsWith fault time := by
  cases hfault with
  | parse hx hparse =>
    have hseen := h.mem_seen hx rfl
    unfold Fate.ofAdmitted at hseen ⊢
    rw [hparse] at hseen ⊢
    obtain ⟨rfl, -⟩ := Prod.mk.inj (List.mem_singleton.mp hseen)
    exact ⟨rfl, rfl⟩
  | call hcalls hdue =>
    obtain ⟨x, hx, hshows⟩ := hcalls
    exact Fate.ofAdmitted_fails (h.mem_seen hx hshows.isCall) hshows hdue

/-- A request that meets a fault has called somebody. -/
lemma Meets.exists_call (h : t.Meets limit fault time) : ∃ e ∈ t.visit, e.2.isCall = true := by
  cases h with
  | parse hx => exact ⟨_, hx, rfl⟩
  | call hcalls =>
    obtain ⟨x, hx, hshows⟩ := hcalls
    exact ⟨_, hx, hshows.isCall⟩

/-- Along its course a request that meets a fault within its time is fated to leave because of it. -/
lemma Course.fails (h : Course s last t) {budget : Nat} (hlimit : s.writeTimeout = .ofMillis budget)
    (hgrant : t.grantTime? = some grant) (hfault : t.Meets (grant + budget) fault time) :
    Fated s t.job grant (grant + budget) t.visit t.phase ∧
      (Fate.ofAdmitted s t.job grant (grant + budget)).FailsWith fault time := by
  have hstarts : ∃ d, Deadline.start? (instantOf grant) s.writeTimeout = some d := by
    rcases (h.stay hgrant).start_cases with ⟨-, -, hnone⟩ | ⟨hstart, -⟩
    · obtain ⟨e, he, hcall⟩ := hfault.exists_call
      rw [hnone e he] at hcall
      cases hcall
    · exact hstart
  obtain ⟨d, hstart⟩ := hstarts
  have hd := hstart
  rw [hlimit] at hd
  rw [Deadline.eq_between_of_start? hd] at hstart
  have hfated := h.fated hgrant hstart (Nat.le_add_right _ _)
  exact ⟨hfated, hfated.fails hfault⟩

end Task

namespace Run

/-- A request that has met a fault at a millisecond tells a client nothing of it. -/
structure Hushed (s : Service) (r : Run) (t : Task) (time : Nat) : Prop where
  /-- It is answered at that millisecond, with the status for internal errors and in fixed words, unless
  it has been cancelled before. -/
  outcome : ∀ o, t.outcome? = some o →
    .ended o = Stage.answered s time (.plain .internalError "Internal error") ∨
      o = .cancelled ∧ ∃ c, t.job.cancelAt = some c ∧ c < time
  /-- When everything that is due at that millisecond has happened, it has ended. -/
  ends : ∀ horizon, time ≤ horizon → r.StoppedAt horizon → t.hasEnded = true

/-- In every run a request that meets a fault from outside tells a client nothing of it. -/
lemma Reachable.hushed {s : Service} {budget : Nat} (hlimit : s.writeTimeout = .ofMillis budget)
    {jobs : List Job} {r : Run} (hreach : Reachable s jobs r) {t : Task} (ht : t ∈ r.tasks)
    {grant time : Nat} {fault : Fault} (hgrant : t.grantTime? = some grant)
    (hfault : t.Meets (grant + budget) fault time) (hforeign : fault.IsForeign) :
    Hushed s r t time := by
  obtain ⟨last, -, hcourse⟩ := hreach.sound.course t ht
  obtain ⟨hfated, hfinish, hresult⟩ := hcourse.fails hlimit hgrant hfault
  constructor
  · intro o ho
    have hended := (Task.outcome?_eq_some_iff.mp ho ▸ hfated).of_ended rfl
    rcases hended with ⟨rfl, -⟩ | ⟨rfl, c, hc, hlt, -⟩
    · left
      rw [← hforeign.response, ← hfinish]
      simp only [Fate.response, hresult, Stage.answered]
    · right
      exact ⟨rfl, c, hc, hfinish ▸ hlt⟩
  · intro horizon hle hstopped
    refine hstopped.hasEnded ht fun hopen => ?_
    obtain ⟨q, hq, htick⟩ := hfated.exists_pending hopen
    exact ⟨q, hq, htick.trans (hfinish ▸ hle)⟩

/-- A client learns nothing of internal text: requests that agree up to redaction are served in the same
way, whatever happens in which order, and a fault from outside is only ever told as an internal error.
-/
theorem discreet_of_redact_eq (c : Config) (epoch : Nat) :
    (∀ jobs jobs' : List Job, jobs.map Job.redact = jobs'.map Job.redact →
      (∀ horizon, Discreet (serve (.ofConfig c epoch) jobs horizon)
        (serve (.ofConfig c epoch) jobs' horizon)) ∧
      ∀ r, Reachable (.ofConfig c epoch) jobs r → ∃ r', Reachable (.ofConfig c epoch) jobs' r' ∧
        Discreet r r' ∧ ∀ horizon, r.StoppedAt horizon ↔ r'.StoppedAt horizon) ∧
    ∀ jobs r, Reachable (.ofConfig c epoch) jobs r → ∀ t ∈ r.tasks, ∀ grant time fault,
      t.grantTime? = some grant → t.Meets (grant + c.budget) fault time → fault.IsForeign →
        Hushed (.ofConfig c epoch) r t time := by
  have hkept := Task.kept_agreesWith (.ofConfig c epoch)
  constructor
  · intro jobs jobs' hjobs
    constructor
    · intro horizon
      exact discreet_of_lockstep (lockstep_serve hkept rfl (agreesWith_ofJob hjobs) horizon)
    · intro r hr
      obtain ⟨r', hr', h⟩ := hr.lockstep hkept rfl (agreesWith_ofJob hjobs)
      exact ⟨r', hr', discreet_of_lockstep h, fun horizon => h.stoppedAt_iff hkept⟩
  · intro jobs r hr t ht grant time fault hgrant hfault hforeign
    exact hr.hushed (Service.writeTimeout_ofConfig c epoch) ht hgrant hfault hforeign

/-- A request whose download reports a fault after five milliseconds. -/
def faultyJob (fault : Fault) : Job := imageJob 0 ⟨some 5, .error fault⟩

/-- A fault from outside that a known one has caused. -/
def causedFault : Fault := .causedBy "connection reset" (.known (.download "refused"))

/-- A fault from outside that a known one has caused tells a client as little as one that comes alone:
the two requests go the same way, and they are answered when the download fails. -/
theorem discreet_of_faultyJob :
    let s := Service.ofConfig oneSlot 0
    let r := serve s [faultyJob causedFault] 20
    Discreet r (serve s [faultyJob (.foreign "disk full")] 20) ∧
      ∃ t ∈ r.tasks, t.hasEnded = true ∧ Hushed s r t 5 := by
  have hseen : (serve (.ofConfig oneSlot 0) [faultyJob causedFault] 20).tasks[0]?.map
      (fun t => t.visit.take 3) =
      some [(0, .slotsInUse 1), (0, .parseCalled), (0, .downloadCalled "http://a/" 10000)] := by rfl
  have hgrant : (serve (.ofConfig oneSlot 0) [faultyJob causedFault] 20).tasks[0]?.bind
      Task.grantTime? = some 0 := by decide +kernel
  intro s r
  have hreach : Reachable s [faultyJob causedFault] r := reachable_serve _ _ _
  obtain ⟨hsame, hforeign⟩ := discreet_of_redact_eq oneSlot 0
  obtain ⟨hserve, -⟩ := hsame [faultyJob causedFault] [faultyJob (.foreign "disk full")] rfl
  refine ⟨hserve 20, ?_⟩
  obtain ⟨t, htask, hgrant⟩ := Option.bind_eq_some_iff.mp hgrant
  have ht : t ∈ r.tasks := List.mem_of_getElem? htask
  have hjob : t.job = faultyJob causedFault := (Option.some.inj (hreach.sound.job htask)).symm
  have hcalled : (0, .downloadCalled "http://a/" 10000) ∈ t.visit := by
    rw [htask] at hseen
    have htake : t.visit.take 3 = _ := Option.some.inj hseen
    refine List.mem_of_mem_take (?_ : _ ∈ t.visit.take 3)
    rw [htake]
    simp
  have hcalls : t.Calls 0 (faultyJob causedFault).collaborators.download :=
    ⟨_, hcalled, hjob ▸ .download "http://a/" 10000⟩
  have hushed := hforeign _ r hreach t ht 0 5 _ hgrant (.call hcalls (by decide +kernel)) trivial
  exact ⟨t, ht, hushed.ends 20 (by decide) (stoppedAt_serve _ _ _), hushed⟩

end Run

end Gateway
