import Mathlib
import Gateway.Proofs.Run.Slots

/-!
# Requests do not interfere

From its admission on, a request goes the way that it goes when it is alone: it sees the others only
in the numbers of slots that it publishes. So what is seen of its visit, apart from these numbers, and
how and when it ends are the same as in a run of its own in which it arrives at the time of its
admission (`Run.alone_of_reachable`).

The proof follows the request along its course and lets its own run take one step for each of its
turns. Two turns of a request that find different shared states only differ in the numbers of slots
(`Turn.Same`), because the work of a turn does not depend on what is shared (`Stage.Works`).
-/

namespace Gateway

/-- An event without the number of slots that it publishes. -/
def Event.eraseGauge : Event → Event
  | .slotsInUse _ => .slotsInUse 0
  | e => e

/-- Two turns differ in the numbers of slots at most. -/
structure Turn.Same (a b : Turn) : Prop where
  phase : a.phase = b.phase
  events : a.events.map Event.eraseGauge = b.events.map Event.eraseGauge

namespace Stage

variable {s : Service} {job : Job} {now : Nat}

/-! ## Turns that find different shared states -/

/-- What is seen of a request that leaves, apart from the number of slots. -/
lemma departureEvents_same (shared shared' : Shared) (img : Bool) :
    (departureEvents shared img).map Event.eraseGauge =
      (departureEvents shared' img).map Event.eraseGauge := by
  cases img <;> rfl

/-- The same work has the same ending. -/
lemma Ending.turn_same (s : Service) (i i' now : Nat) (shared shared' : Shared) (w : List Event)
    (e : Ending) : (e.turn s i now shared w).Same (e.turn s i' now shared' w) := by
  refine ⟨rfl, ?_⟩
  simp only [turn, List.map_append, List.append_cancel_left_eq]
  rcases e with p | ⟨img, f | ⟨r, entry⟩⟩
  · rfl
  · simp only [events, List.map_append, departureEvents_same shared shared']
  · simp only [events, List.map_cons, departureEvents_same shared shared']

/-- A turn of an admitted request does not depend on what is shared. -/
lemma Amounts.same {turn : Nat → Shared → Turn} {w : List Event} {e : Ending}
    (h : Amounts s now turn w e) (i i' : Nat) (shared shared' : Shared) :
    (turn i shared).Same (turn i' shared') := by
  obtain ⟨pool, hturn⟩ := h i shared
  obtain ⟨pool', hturn'⟩ := h i' shared'
  rw [hturn, hturn']
  exact e.turn_same s i i' now _ _ w

/-- A request that is admitted publishes the number of slots first of all. -/
lemma admitted_events (s : Service) (job : Job) (i now : Nat) (shared : Shared) :
    ∃ n rest, (admitted s job i now shared).events = .slotsInUse n :: rest := by
  rw [admitted, Turn.after_events, List.singleton_append]
  exact ⟨_, _, rfl⟩

/-- The turn with which a request is admitted does not depend on what is shared. -/
lemma admitted_same (s : Service) (job : Job) (now i i' : Nat) (shared shared' : Shared) :
    (admitted s job i now shared).Same (admitted s job i' now shared') := by
  rcases hstart : Deadline.start? (instantOf now) s.writeTimeout with _ | d
  · rw [admitted_panics hstart, admitted_panics hstart]
    exact ⟨rfl, rfl⟩
  · obtain ⟨w, e, -, hturn⟩ := @admitted_works s job now d hstart
    obtain ⟨pool, heq⟩ := hturn i shared
    obtain ⟨pool', heq'⟩ := hturn i' shared'
    have hsame := e.turn_same s i i' now { shared with pool := pool }
      { shared' with pool := pool' } (.parseCalled :: w)
    rw [heq, heq']
    exact ⟨hsame.phase, congrArg (Event.slotsInUse 0 :: ·) hsame.events⟩

/-- The turn with which a request goes on does not depend on what is shared. -/
lemma fire_same {p : Phase} {q : Pending} (hp : p.pending? = some q)
    (hsource : q.stage = .download → ∀ source, q.result = .ok source →
      job.collaborators.download.answer = .ok source) (now i i' : Nat) (shared shared' : Shared) :
    (fire s job i now shared p).Same (fire s job i' now shared' p) := by
  obtain ⟨w, e, -, hturn⟩ := @fire_works s job now p q hp hsource
  exact hturn.same i i' shared shared'

/-- A cancelled request leaves in the same way whatever is shared. -/
lemma cancel_same (i i' : Nat) (shared shared' : Shared) (p : Phase) :
    (cancel i shared p).Same (cancel i' shared' p) := by
  cases p with
  | expected | queued | ended => exact ⟨rfl, rfl⟩
  | downloading | processing => exact ⟨rfl, departureEvents_same shared shared' _⟩

/-! ## Turns of a request with another arrival

No stage after the admission looks at the arrival of the request. Each stage is opened once, and the
stages that it leads to are rewritten by name: comparing the whole turns at once would open all of
them inside each other. -/

section Arrival

variable (s : Service) (job : Job) (arrival i now : Nat) (shared : Shared) (v : Visit)

lemma encode_arrival (tag : Option (List Char)) (data : Bytes) :
    encode s { job with arrival := arrival } i now shared v tag data =
      encode s job i now shared v tag data :=
  rfl

lemma afterProcess_arrival (tag : Option (List Char)) (result : Except Failure Bytes) :
    afterProcess s { job with arrival := arrival } i now shared v tag result =
      afterProcess s job i now shared v tag result := by
  unfold afterProcess
  simp only [encode_arrival]

lemma startProcess_arrival (source : Bytes) (tag : Option (List Char)) :
    startProcess s { job with arrival := arrival } i now shared v source tag =
      startProcess s job i now shared v source tag := by
  unfold startProcess
  simp only [afterProcess_arrival]

lemma compare_arrival (source : Bytes) :
    compare s { job with arrival := arrival } i now shared v source =
      compare s job i now shared v source := by
  unfold compare
  simp only [startProcess_arrival]

lemma afterDownload_arrival (result : Except Failure Bytes) :
    afterDownload s { job with arrival := arrival } i now shared v result =
      afterDownload s job i now shared v result := by
  unfold afterDownload
  simp only [compare_arrival]

lemma startDownload_arrival :
    startDownload s { job with arrival := arrival } i now shared v =
      startDownload s job i now shared v := by
  unfold startDownload
  simp only [afterDownload_arrival]

/-- A request is admitted in the same way whenever it arrived. -/
lemma admitted_arrival :
    admitted s { job with arrival := arrival } i now shared = admitted s job i now shared := by
  unfold admitted
  simp only [startDownload_arrival]

/-- A request that waits for a collaborator goes on in the same way whenever it arrived. -/
lemma fire_arrival {p : Phase} {q : Pending} (hp : p.pending? = some q) :
    fire s { job with arrival := arrival } i now shared p = fire s job i now shared p := by
  cases p with
  | expected | queued | ended => cases hp
  | downloading v tick result => exact afterDownload_arrival s job arrival i now shared v result
  | processing v source tag tick result =>
    exact afterProcess_arrival s job arrival i now shared v tag result

end Arrival

end Stage

/-! ## The visits of one request in two runs -/

namespace Task

variable {s : Service} {last now i : Nat} {shared : Shared} {t : Task} {turn : Turn}

/-- What is seen of a visit apart from the numbers of slots. -/
def bareVisit (t : Task) : List (Nat × Event) := t.visit.map fun e => (e.1, e.2.eraseGauge)

/-- What is seen of a visit tells when it began. -/
lemma grantTime?_eq (t : Task) : t.grantTime? = t.bareVisit.head?.map Prod.fst := by
  simp [grantTime?, bareVisit, Function.comp_def]

/-- What is seen in one turn apart from the numbers of slots. -/
lemma map_erase_time (now : Nat) (es : List Event) :
    ((es.map fun x => (now, x)).map fun e => (e.1, e.2.eraseGauge)) =
      (es.map Event.eraseGauge).map fun x => (now, x) := by
  simp [Function.comp_def]

/-- Two requests that are at one point of their visits are so after two turns that are the same. -/
lemma bareVisit_moved {u : Task} {a b : Turn} (ht : t.visit ≠ []) (hu : u.visit ≠ [])
    (hvisit : t.bareVisit = u.bareVisit) (hsame : a.Same b) (now : Nat) :
    (t.after now a).bareVisit = (u.after now b).bareVisit := by
  rw [bareVisit, bareVisit, after, after, visit_moved_of_admitted ht, visit_moved_of_admitted hu,
    List.map_append, List.map_append, map_erase_time, map_erase_time, hsame.events]
  exact congrArg (· ++ _) hvisit

/-- A request that is admitted begins its visit with what it does then. -/
lemma visit_of_admission {front : List Event} (ht : t.visit = [])
    (hfront : front.countP Event.isGauge = 0) (job : Job) (now i : Nat) (shared : Shared) :
    (t.after now (Turn.after front (Stage.admitted s job i now shared))).visit =
      (Stage.admitted s job i now shared).events.map fun x => (now, x) := by
  obtain ⟨n, rest, hrest⟩ := Stage.admitted_events s job i now shared
  rw [after, Turn.after_events, hrest]
  exact visit_moved_of_entry ht now hfront n _

/-- The turn with which a request comes to be admitted at a time: it takes place at that time, the
request needs a slot and is not cancelled before, and what it does with its slot begins its visit. -/
lemma Takes.grant (h : t.Takes s now i shared turn) (ht : Course s last t)
    (hfit : shared.Fits s i t.phase) (hvisit : t.visit = []) {grant : Nat}
    (hgrant : (t.after now turn).grantTime? = some grant) :
    now = grant ∧ Stage.NeedsSlot s t.job.request ∧
      shared.admission.holders.length < s.capacity ∧ (∀ c, t.job.cancelAt = some c → now ≤ c) ∧
      ∃ front shared', turn = Turn.after front (Stage.admitted s t.job i now shared') ∧
        (t.after now turn).visit =
          (Stage.admitted s t.job i now shared').events.map fun x => (now, x) := by
  have hbefore := visit_eq_nil_iff.mp hvisit
  have hgauge : turn.events.countP Event.isGauge ≠ 0 := by
    intro hnone
    have hempty : (t.after now turn).visit = [] := by
      rw [visit_eq_nil_iff, after, events_moved, List.countP_append, hnone, hbefore]
    rw [grantTime?_eq_none_iff.mpr hempty] at hgrant
    cases hgrant
  obtain ⟨hneeds, hlt, hcancel, front, shared', hfront, rfl⟩ :=
    h.admission ht hfit hbefore hgauge
  have hseen := visit_of_admission (s := s) hvisit hfront t.job now i shared'
  obtain ⟨n, rest, hrest⟩ := Stage.admitted_events s t.job i now shared'
  have hnow : now = grant := by
    rw [grantTime?, hseen, hrest] at hgrant
    exact Option.some.inj hgrant
  exact ⟨hnow, hneeds, hlt, hcancel, front, shared', rfl, hseen⟩

/-- The timer of a request after its arrival does not depend on when it arrived. -/
lemma timer?_congr {u : Task} (hphase : u.phase = t.phase)
    (hcancel : u.job.cancelAt = t.job.cancelAt) (hp : t.phase ≠ .expected) :
    u.timer? = t.timer? := by
  have hown : u.ownTime? = t.ownTime? := by
    unfold ownTime?
    rw [hphase]
    rcases h : t.phase <;> first | rfl | exact absurd h hp
  have hcancels : u.cancelTime? = t.cancelTime? := by
    unfold cancelTime? hasEnded
    rw [hphase, hcancel]
  unfold timer?
  rw [hown, hcancels]

/-- A request that has been admitted is past its arrival and out of the line. -/
lemma Course.ne_of_admitted (h : Course s last t) (hvisit : t.visit ≠ []) :
    t.phase ≠ .expected ∧ t.phase ≠ .queued := by
  have hgauges := h.gauges.1
  constructor <;> intro hphase <;> rw [hphase] at hgauges <;>
    exact hvisit (visit_eq_nil_iff.mpr hgauges)

/-- A request that has been admitted and still has a timer waits for a collaborator. -/
lemma Course.exists_pending (h : Course s last t) (hvisit : t.visit ≠ []) {a : Timer}
    (ha : t.timer? = some a) : ∃ q, t.phase.pending? = some q := by
  obtain ⟨hexpected, hqueued⟩ := h.ne_of_admitted hvisit
  rcases hphase : t.phase with _ | _ | _ | _ | o
  · exact absurd hphase hexpected
  · exact absurd hphase hqueued
  · exact ⟨_, rfl⟩
  · exact ⟨_, rfl⟩
  · simp [timer?, ownTime?, cancelTime?, hasEnded, hphase] at ha

end Task

/-! ## A run with one request -/

namespace Run

variable {s : Service} {jobs : List Job} {r : Run} {horizon : Nat} {u : Task} {a : Timer}

/-- In a run with one request nobody is handed a slot while that request is not in the line. -/
lemma Sound.handed_single (hr : r.Sound s jobs) (htasks : r.tasks = [u])
    (hphase : u.phase ≠ .queued) : r.shared.admission.handed = [] := by
  rw [List.eq_nil_iff_forall_not_mem]
  intro i hi
  obtain ⟨t, htask, ht⟩ := hr.queued_of_handed hi
  rw [htasks] at htask
  obtain rfl := List.mem_singleton.mp (List.mem_of_getElem? htask)
  exact hphase ht

/-- Its next timer is what happens next. -/
lemma next?_single (htasks : r.tasks = [u]) (hhanded : r.shared.admission.handed = [])
    (ha : u.timer? = some a) (hle : a.time ≤ horizon) : r.next? horizon = some (.timer 0 a) := by
  simp only [next?, htasks, earliest, ha, hhanded, if_pos hle]

/-- Nothing happens any more if it has no timer by the end. -/
lemma next?_single_eq_none (htasks : r.tasks = [u]) (hhanded : r.shared.admission.handed = [])
    (hlate : ∀ a, u.timer? = some a → horizon < a.time) : r.next? horizon = none := by
  rcases ha : u.timer? with _ | a
  · simp only [next?, htasks, earliest, ha, hhanded]
  · simp only [next?, htasks, earliest, ha, hhanded, if_neg (Nat.not_le.mpr (hlate a ha))]

/-- Its next timer makes the request take a turn. -/
lemma Sound.act_single (hr : r.Sound s jobs) (htasks : r.tasks = [u]) (ha : u.timer? = some a) :
    (r.act s (.timer 0 a)).tasks = [u.after a.time
      (if a.cancels then Stage.cancel 0 r.shared u.phase
        else Stage.fire s u.job 0 a.time r.shared u.phase)] := by
  have htask : r.tasks[0]? = some u := by rw [htasks]; rfl
  have hle := hr.punctual u (List.mem_of_getElem? htask) a ha
  rw [act_of_task (a := .timer 0 a) htask]
  simp only [turn, max_eq_right hle, htasks, Action.place, List.set_cons_zero]

/-- It is the same request all the time. -/
lemma job_of_steps {job : Job} {n : Nat} (htasks : (steps s horizon n (start s [job])).tasks = [u]) :
    u.job = job := by
  have hreach : Reachable s [job] (steps s horizon n (start s [job])) := Reachable.start.steps
  have hjobs := hreach.sound.jobs
  rw [htasks] at hjobs
  exact (List.cons.inj hjobs).1

/-- A request that needs a slot is admitted when it arrives in a run of its own. -/
lemma admitted_alone {job : Job} {grant : Nat} (hneeds : Stage.NeedsSlot s job.request)
    (hcapacity : 0 < s.capacity) (hcancel : ∀ c, job.cancelAt = some c → grant ≤ c)
    (hle : grant ≤ horizon) :
    ∃ u shared, (steps s horizon 1 (start s [{ job with arrival := grant }])).tasks = [u] ∧
      u.phase = (Stage.admitted s job 0 grant shared).phase ∧
      u.visit = (Stage.admitted s job 0 grant shared).events.map fun x => (grant, x) := by
  set own : Job := { job with arrival := grant } with hown
  have htimer : (Task.ofJob own).timer? = some ⟨grant, false⟩ := by
    refine Task.timer?_eq_some_iff.mpr (.inl ⟨rfl, rfl, fun c hc => ?_⟩)
    exact hcancel c (Task.cancelTime?_eq_some_iff.mp hc).2
  have hnext : (start s [own]).next? horizon = some (.timer 0 ⟨grant, false⟩) :=
    next?_single rfl rfl htimer hle
  have hact := (Sound.start s [own]).act_single rfl htimer
  have hholds : 0 ∈ ((start s [own]).shared.admission.arrive 0).holders := by
    simp [start, Admission.arrive, Admission.new, hcapacity]
  have hask : Stage.NeedsSlot s own.request := hneeds
  have harrive : Stage.fire s own 0 grant (start s [own]).shared .expected =
      Turn.after [.log (.requestStarted own.request.target.shown), .requestCounted]
        (Stage.admitted s job 0 grant { (start s [own]).shared with
          admission := (start s [own]).shared.admission.arrive 0 }) := by
    rw [Stage.fire, Stage.arrive_of_needsSlot hask, Stage.requestSlot_of_holds hholds,
      Turn.after_after, hown, Stage.admitted_arrival]
    rfl
  simp only [Bool.false_eq_true, if_false] at hact
  have htasks : (steps s horizon 1 (start s [own])).tasks =
      [(Task.ofJob own).after grant (Stage.fire s own 0 grant (start s [own]).shared .expected)] :=
    (congrArg Run.tasks (steps_succ (n := 0) hnext)).trans hact
  rw [harrive] at htasks
  refine ⟨_, _, htasks, ?_, Task.visit_of_admission rfl rfl job grant 0 _⟩
  rw [Task.after_phase, Turn.after_phase]

/-- While a request waits for a collaborator in a run of its own, its timer makes it take the next
turn. -/
lemma steps_succ_alone {n grant : Nat} {t : Task} {q : Pending}
    (htasks : (steps s horizon n (start s [{ t.job with arrival := grant }])).tasks = [u])
    (hphase : u.phase = t.phase) (hq : t.phase.pending? = some q) (ha : t.timer? = some a)
    (hle : a.time ≤ horizon) :
    ∃ shared, (steps s horizon (n + 1) (start s [{ t.job with arrival := grant }])).tasks =
      [u.after a.time (if a.cancels then Stage.cancel 0 shared t.phase
        else Stage.fire s t.job 0 a.time shared t.phase)] := by
  have hreach : Reachable s [{ t.job with arrival := grant }]
      (steps s horizon n (start s [{ t.job with arrival := grant }])) := Reachable.start.steps
  have hr := hreach.sound
  have hjob := job_of_steps htasks
  have hqueued : u.phase ≠ .queued := by
    intro h
    rw [← hphase, h] at hq
    cases hq
  have hexpected : t.phase ≠ .expected := by
    intro h
    rw [h] at hq
    cases hq
  have htimer : u.timer? = some a :=
    (Task.timer?_congr hphase (by rw [hjob]) hexpected).trans ha
  have hnext := next?_single htasks (hr.handed_single htasks hqueued) htimer hle
  have hact := hr.act_single htasks htimer
  rw [hphase, hjob, Stage.fire_arrival s t.job grant 0 a.time _ hq] at hact
  exact ⟨_, (congrArg Run.tasks (steps_succ hnext)).trans hact⟩

end Run

/-! ## The run of a request alone -/

namespace Task

variable {s : Service} {last : Nat} {t : Task}

/-- Along its course from its admission on, a request is where it is in a run of its own after some
number of steps. -/
theorem Course.alone (h : Course s last t) {grant horizon : Nat}
    (hgrant : t.grantTime? = some grant) (hle : last ≤ horizon) :
    ∃ n u, (Run.steps s horizon n (Run.start s [{ t.job with arrival := grant }])).tasks = [u] ∧
      u.phase = t.phase ∧ u.bareVisit = t.bareVisit := by
  induction h with
  | expected job => cases hgrant
  | @turn last now i shared t turn ht hlast hfit htakes ih =>
    rw [after_job, after_phase]
    by_cases hvisit : t.visit = []
    · -- the turn admits the request, as the first step of its own run does
      obtain ⟨rfl, hneeds, hlt, hcancel, front, shared', rfl, hseen⟩ :=
        htakes.grant ht hfit hvisit hgrant
      obtain ⟨u, shared'', htasks, hphase, halone⟩ :=
        Run.admitted_alone hneeds (Nat.zero_lt_of_lt hlt) hcancel hle
      have hsame := Stage.admitted_same s t.job now 0 i shared'' shared'
      refine ⟨1, u, htasks, ?_, ?_⟩
      · rw [Turn.after_phase, hphase, hsame.phase]
      · rw [bareVisit, bareVisit, hseen, halone, map_erase_time, map_erase_time, hsame.events]
    · -- the request is inside: its own run has the same timer, which makes it take the same turn
      rw [after, grantTime?_moved_of_admitted hvisit] at hgrant
      obtain ⟨n, u, htasks, hphase, hseen⟩ := ih hgrant (hlast.trans hle)
      have hu : u.visit ≠ [] := by
        intro hnone
        rw [bareVisit, hnone] at hseen
        exact hvisit (List.map_eq_nil_iff.mp hseen.symm)
      have hsource {q : Pending} (hq : t.phase.pending? = some q) :
          q.stage = .download → ∀ source, q.result = .ok source →
            t.job.collaborators.download.answer = .ok source :=
        fun hdownload _ hok => (ht.awaits hq).source hdownload hok
      cases htakes with
      | fires htimer =>
        obtain ⟨q, hq⟩ := ht.exists_pending hvisit htimer
        obtain ⟨shared', hnext⟩ := Run.steps_succ_alone htasks hphase hq htimer hle
        have hsame := Stage.fire_same (s := s) hq (hsource hq) now 0 i shared' shared
        simp only [Bool.false_eq_true, if_false] at hnext
        refine ⟨n + 1, _, hnext, ?_, bareVisit_moved hu hvisit hseen hsame now⟩
        rw [after_phase, hsame.phase]
      | cancels htimer =>
        obtain ⟨q, hq⟩ := ht.exists_pending hvisit htimer
        obtain ⟨shared', hnext⟩ := Run.steps_succ_alone htasks hphase hq htimer hle
        have hsame := Stage.cancel_same 0 i shared' shared t.phase
        simp only [if_true] at hnext
        refine ⟨n + 1, _, hnext, ?_, bareVisit_moved hu hvisit hseen hsame now⟩
        rw [after_phase, hsame.phase]
      | resumes hqueued => exact absurd hqueued (ht.ne_of_admitted hvisit).2

end Task

namespace Run

variable {s : Service} {jobs : List Job} {r : Run} {horizon : Nat}

/-- However the requests of a run go, each one that is admitted ends as it does when it is alone and
arrives at the time of its admission, and the same is seen of its visit, apart from the numbers of
slots that it publishes. -/
theorem alone_of_reachable (hreach : Reachable s jobs r) (hstopped : r.StoppedAt horizon) {i : Nat}
    {job : Job} {t : Task} (hjob : jobs[i]? = some job) (htask : r.tasks[i]? = some t) {grant : Nat}
    (hgrant : t.grantTime? = some grant) :
    ∃ u, (serve s [{ job with arrival := grant }] horizon).tasks = [u] ∧
      u.outcome? = t.outcome? ∧ u.grantTime? = some grant ∧ u.bareVisit = t.bareVisit := by
  have hr := hreach.sound
  have ht := List.mem_of_getElem? htask
  obtain ⟨last, hlast, hcourse⟩ := hr.course t ht
  obtain rfl : t.job = job := by
    have hsome := congrArg (·[i]?) hr.jobs
    simpa [htask, hjob] using hsome
  obtain ⟨n, u, htasks, hphase, hseen⟩ :=
    hcourse.alone hgrant (hlast.trans hstopped.1)
  have hvisit : t.visit ≠ [] := by
    intro hnone
    rw [Task.grantTime?, hnone] at hgrant
    cases hgrant
  obtain ⟨hexpected, hqueued⟩ := hcourse.ne_of_admitted hvisit
  have hreach' : Reachable s [{ t.job with arrival := grant }]
      (steps s horizon n (start s [{ t.job with arrival := grant }])) := Reachable.start.steps
  have hhanded := hreach'.sound.handed_single htasks (hphase ▸ hqueued)
  have htimer : u.timer? = t.timer? :=
    Task.timer?_congr hphase (by rw [job_of_steps htasks]) hexpected
  have hlate : ∀ a, u.timer? = some a → horizon < a.time := by
    intro a ha
    exact (next?_eq_none hstopped.2).2 t ht a (htimer ▸ ha)
  have hserve := serve_eq_steps (next?_single_eq_none htasks hhanded hlate)
  refine ⟨u, hserve ▸ htasks, ?_, ?_, hseen⟩
  · rw [Task.outcome?, Task.outcome?, hphase]
  · rw [Task.grantTime?_eq, hseen, ← Task.grantTime?_eq, hgrant]

/-- The request that has waited for the only slot until the one before it timed out is answered as if
it had come then and been alone. -/
theorem alone_of_rivals :
    let r := serve (.ofConfig oneSlot 0) rivals 20000
    ∃ t ∈ r.tasks, t.grantTime? = some 10000 ∧
      ∃ u, (serve (.ofConfig oneSlot 0) [imageJob 10000 ⟨some 5, .ok [1]⟩] 20000).tasks = [u] ∧
        u.outcome? = t.outcome? ∧ u.grantTime? = some 10000 ∧ u.bareVisit = t.bareVisit := by
  intro r
  have hreach := reachable_serve (.ofConfig oneSlot 0) rivals 20000
  have hstopped := stoppedAt_serve (.ofConfig oneSlot 0) rivals 20000
  have hsecond : r.tasks[1]?.bind Task.grantTime? = some 10000 := by decide +kernel
  obtain ⟨t, ht, hgrant⟩ := Option.bind_eq_some_iff.mp hsecond
  have hjob : rivals[1]? = some (imageJob 1 ⟨some 5, .ok [1]⟩) := rfl
  exact ⟨t, List.mem_of_getElem? ht, hgrant,
    alone_of_reachable hreach hstopped hjob ht hgrant⟩

end Run

end Gateway
