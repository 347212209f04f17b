import Mathlib
import Gateway.Proofs.Admission.Slots
import Gateway.Proofs.Stage.Work

/-!
# The turns of a request

A request moves from one place where it stops to another. `Move` lists the ways in which it can do so
at a given millisecond, with everything that an observer sees: it is answered at once, joins the line,
enters with a slot, goes on when a collaborator is done, or is cancelled. Every turn that the stages
take is one of these (`move_arrive`, `move_resume`, `move_fire`, `move_cancel`).

The second thing that a turn does is to change the slots. Where a request stops tells how it stands
towards them (`Phase.standing`), and `Turn.Settles` says that this is true again after the turn and
that all others stand as before.
-/

namespace Gateway

open Admission (Standing)

/-- How a request stands towards the slots where it stops. -/
def Phase.standing : Phase → Standing
  | .expected => .out
  | .queued => .waits
  | .downloading .. => .holds
  | .processing .. => .holds
  | .ended _ => .out

/-- A request that waits for a collaborator holds a slot. -/
lemma Phase.standing_of_pending {p : Phase} {q : Pending} (hp : p.pending? = some q) :
    p.standing = .holds := by
  cases p <;> first | rfl | cases hp

/-- A request that holds a slot waits for a collaborator. -/
lemma Phase.exists_pending {p : Phase} (hp : p.standing = .holds) :
    ∃ q, p.pending? = some q := by
  cases p <;> first | exact ⟨_, rfl⟩ | cases hp

/-- A request that waits for a slot is in the line. -/
lemma Phase.eq_queued {p : Phase} (hp : p.standing = .waits) : p = .queued := by
  cases p <;> first | rfl | cases hp

/-- The largest number of turns that a request can still take where it stops. -/
def Phase.turnsLeft : Phase → Nat
  | .expected => 4
  | .queued => 3
  | .downloading .. => 2
  | .processing .. => 1
  | .ended _ => 0

/-- The slots are accounted for and agree with where the request at a place stops. -/
structure Shared.Fits (s : Service) (shared : Shared) (i : Nat) (p : Phase) : Prop where
  valid : shared.admission.Valid
  capacity : shared.admission.capacity = s.capacity
  standing : shared.admission.standing i = p.standing

/-- A turn of the request at a place leaves the slots accounted for and in agreement with where the
request stops, and it does not change how the others stand. -/
structure Turn.Settles (s : Service) (i : Nat) (shared : Shared) (turn : Turn) : Prop where
  fits : turn.shared.Fits s i turn.phase
  others : ∀ j, j ≠ i → turn.shared.admission.standing j = shared.admission.standing j

@[simp] lemma Turn.after_events (es : List Event) (t : Turn) :
    (Turn.after es t).events = es ++ t.events :=
  rfl

@[simp] lemma Turn.after_phase (es : List Event) (t : Turn) :
    (Turn.after es t).phase = t.phase :=
  rfl

@[simp] lemma Turn.after_shared (es : List Event) (t : Turn) :
    (Turn.after es t).shared = t.shared :=
  rfl

lemma Turn.after_nil (t : Turn) : Turn.after [] t = t := by
  cases t
  rfl

lemma Turn.after_after (es es' : List Event) (t : Turn) :
    Turn.after es (Turn.after es' t) = Turn.after (es ++ es') t := by
  simp only [Turn.after, List.append_assoc]

namespace Stage

/-! ## Moves -/

/-- Whether a request has to be admitted. All others are answered at once. -/
def NeedsSlot (s : Service) (request : Request) : Prop :=
  request.method = .get ∧ s.secret.check request.fields = .ok () ∧
    request.target.shown ≠ healthPath

/-- How a request comes to hold a slot, with what is seen of it before. -/
inductive Entry (s : Service) (job : Job) : Phase → List Event → Prop
  | arrives (hneeds : NeedsSlot s job.request) :
      Entry s job .expected [.log (.requestStarted job.request.target.shown), .requestCounted]
  | resumes : Entry s job .queued []

/-- What can happen to a request in one turn: what an observer sees, and where it stops next. -/
inductive Move (s : Service) (job : Job) (now : Nat) : Phase → List Event → Phase → Prop
  /-- It is answered without admission. -/
  | answered {es : List Event} {r : Http.Response} (hlogs : ∀ x ∈ es, ∃ entry, x = .log entry)
      (hneeds : ¬ NeedsSlot s job.request) :
      Move s job now .expected es (answered s now r)
  /-- It joins the line. -/
  | queued (hneeds : NeedsSlot s job.request) :
      Move s job now .expected
        [.log (.requestStarted job.request.target.shown), .requestCounted] .queued
  /-- It gets a slot, but its deadline is out of the range of the clock. -/
  | panicked {p : Phase} {front : List Event} (hentry : Entry s job p front)
      (hstart : Deadline.start? (instantOf now) s.writeTimeout = none) (n : Nat) (shared : Shared) :
      Move s job now p (front ++ .slotsInUse n :: departureEvents shared false) (.ended .panicked)
  /-- It gets a slot and works. -/
  | admitted {p : Phase} {front w : List Event} {d : Deadline} {e : Ending}
      (hentry : Entry s job p front)
      (hstart : Deadline.start? (instantOf now) s.writeTimeout = some d)
      (hwork : Work job now d (.before .download) w e) (n : Nat) (shared : Shared) :
      Move s job now p (front ++ .slotsInUse n :: .parseCalled :: (w ++ e.events shared))
        (e.phase s now)
  /-- The call that it waits for ends, and it works. -/
  | worked {p : Phase} {q : Pending} {w : List Event} {e : Ending} (hp : p.pending? = some q)
      (htick : now = q.tick) (hwork : Work job now q.deadline (.after q.stage q.result) w e)
      (shared : Shared) :
      Move s job now p (w ++ e.events shared) (e.phase s now)
  /-- It is cancelled before it arrives. -/
  | dropped : Move s job now .expected [] (.ended .cancelled)
  /-- It is cancelled in the line, even if a slot has been handed to it. -/
  | left : Move s job now .queued [.durationRecorded] (.ended .cancelled)
  /-- It is cancelled while a collaborator is at work for it. -/
  | stopped {p : Phase} {q : Pending} (hp : p.pending? = some q) (htick : now < q.tick)
      (shared : Shared) :
      Move s job now p (departureEvents shared (hasImage q.stage)) (.ended .cancelled)

/-! ## Endings and slots -/

variable {s : Service} {job : Job} {i now : Nat} {shared : Shared}

/-- Where the work of a turn ends, the request has left or still holds its slot. -/
lemma Work.standing {d : Deadline} {k : Point} {w : List Event} {e : Ending}
    (h : Work job now d k w e) :
    (∃ p, e = .waits p ∧ p.standing = .holds) ∨ ∃ img result, e = .leaves img result := by
  induction h with
  | fails | unchanged | counts | spoils | encodes => exact .inr ⟨_, _, rfl⟩
  | calls _ _ _ _ _ ih | downloaded _ _ ih | processed _ _ ih | quiet _ _ ih => exact ih
  | waits _ _ _ _ hp => exact .inl ⟨_, rfl, Phase.standing_of_pending hp⟩

/-- Where a request stops after some work, it holds its slot or has ended. -/
lemma Work.phase_cases (s : Service) {d : Deadline} {k : Point} {w : List Event} {e : Ending}
    (h : Work job now d k w e) :
    (e.phase s now).standing = .holds ∨ ∃ o, e.phase s now = .ended o := by
  rcases h.standing with ⟨p, rfl, hp⟩ | ⟨img, f | ⟨r, entry⟩, rfl⟩
  · exact .inl hp
  · exact .inr ⟨_, rfl⟩
  · exact .inr ⟨_, rfl⟩

/-- A request that leaves has given back its slot. -/
lemma settles_departed {turn : Turn} {o : Outcome} (hphase : turn.phase = .ended o)
    (hadmission : turn.shared.admission = shared.admission.leave i)
    (hvalid : shared.admission.Valid) (hcapacity : shared.admission.capacity = s.capacity) :
    turn.Settles s i shared := by
  refine ⟨⟨?_, ?_, ?_⟩, fun j hj => ?_⟩
  · rw [hadmission]
    exact hvalid.leave i
  · rw [hadmission, Admission.leave_capacity, hcapacity]
  · rw [hadmission, hphase, hvalid.leave_standing_self]
    rfl
  · rw [hadmission, Admission.leave_standing_of_ne hj]

/-- Work leaves the slots in order, whatever becomes of the pool of buffers. -/
lemma settles_work {d : Deadline} {k : Point} {w : List Event} {e : Ending}
    (hwork : Work job now d k w e) (hvalid : shared.admission.Valid)
    (hcapacity : shared.admission.capacity = s.capacity)
    (hholds : shared.admission.standing i = .holds) (pool : BufferPool) (es : List Event) :
    Turn.Settles s i shared (e.turn s i now { shared with pool := pool } es) := by
  rcases hwork.standing with ⟨p, rfl, hp⟩ | ⟨img, result, rfl⟩
  · exact ⟨⟨hvalid, hcapacity, hholds.trans hp.symm⟩, fun _ _ => rfl⟩
  · rcases result with f | ⟨r, entry⟩
    · exact settles_departed rfl rfl hvalid hcapacity
    · exact settles_departed rfl rfl hvalid hcapacity

/-! ## Progress -/

/-- The largest number of turns that can follow the work from a point. -/
def Point.turnsLeft : Point → Nat
  | .before .download => 2
  | .after .download _ => 1
  | .before .processing => 1
  | .after .processing _ => 0
  | .output => 0

/-- Nothing follows when a request leaves. -/
lemma Ending.turnsLeft_leaves (s : Service) (now : Nat) (img : Bool)
    (result : Except Failure (Http.Response × LogEntry)) :
    ((Ending.leaves img result).phase s now).turnsLeft = 0 := by
  rcases result with f | ⟨r, entry⟩ <;> rfl

/-- The work of a turn leaves at most as many turns as its point allows. -/
lemma Work.turnsLeft_le (s : Service) {d : Deadline} {k : Point} {w : List Event} {e : Ending}
    (h : Work job now d k w e) : (e.phase s now).turnsLeft ≤ k.turnsLeft := by
  induction h with
  | fails | unchanged | counts | spoils | encodes =>
    exact (Ending.turnsLeft_leaves s now _ _).le.trans (Nat.zero_le _)
  | @calls stage _ _ _ _ _ _ _ _ _ _ _ ih =>
    cases stage with
    | download => exact ih.trans (Nat.le_succ 1)
    | processing => exact ih.trans (Nat.le_succ 0)
  | @waits stage _ _ _ _ p _ _ _ _ hp =>
    change p.turnsLeft ≤ _
    cases p with
    | expected | queued | ended => cases hp
    | downloading | processing =>
      obtain rfl := congrArg Pending.stage (Option.some.inj hp)
      exact le_rfl
  | downloaded _ _ ih | processed _ _ ih | quiet _ _ ih => exact ih

/-- With every move fewer turns are left. -/
lemma Move.turnsLeft_lt {p p' : Phase} {es : List Event} (h : Move s job now p es p') :
    p'.turnsLeft < p.turnsLeft := by
  cases h with
  | answered | dropped | left => exact Nat.succ_pos _
  | queued => exact Nat.lt_succ_self 3
  | panicked hentry => cases hentry <;> exact Nat.succ_pos _
  | admitted hentry _ hwork =>
    have hle := hwork.turnsLeft_le s
    cases hentry with
    | arrives => exact Nat.lt_succ_of_lt (Nat.lt_succ_of_le hle)
    | resumes => exact Nat.lt_succ_of_le hle
  | worked hp _ hwork =>
    have hle := hwork.turnsLeft_le s
    cases p with
    | expected | queued | ended => cases hp
    | downloading | processing =>
      obtain rfl := Option.some.inj hp
      exact Nat.lt_succ_of_le hle
  | stopped hp =>
    cases p with
    | expected | queued | ended => cases hp
    | downloading | processing => exact Nat.succ_pos _

/-! ## Entering -/

/-- A request that holds a slot enters. -/
lemma move_admitted {p : Phase} {front : List Event} (hentry : Entry s job p front) (now : Nat)
    (hvalid : shared.admission.Valid) (hcapacity : shared.admission.capacity = s.capacity)
    (hholds : shared.admission.standing i = .holds) :
    Move s job now p (Turn.after front (admitted s job i now shared)).events
        (Turn.after front (admitted s job i now shared)).phase ∧
      (Turn.after front (admitted s job i now shared)).Settles s i shared := by
  rcases hstart : Deadline.start? (instantOf now) s.writeTimeout with _ | d
  · rw [admitted_panics hstart]
    exact ⟨.panicked hentry hstart _ shared, settles_departed rfl rfl hvalid hcapacity⟩
  · obtain ⟨w, e, hwork, hturn⟩ := admitted_works hstart
    obtain ⟨pool, heq⟩ := hturn i shared
    have hsettles := settles_work hwork hvalid hcapacity hholds pool
      (.slotsInUse shared.admission.inUse :: .parseCalled :: w)
    have hmove := Move.admitted hentry hstart hwork shared.admission.inUse
      { shared with pool := pool }
    rw [heq]
    refine ⟨?_, hsettles.fits, hsettles.others⟩
    simpa only [Turn.after, Ending.turn, List.append_assoc, List.cons_append] using hmove

/-- A request that has to be admitted asks for a slot when it arrives. -/
lemma arrive_of_needsSlot (hneeds : NeedsSlot s job.request) :
    arrive s job i now shared =
      Turn.after [.log (.requestStarted job.request.target.shown)]
        (requestSlot s job i now shared) := by
  obtain ⟨hget, hcheck, hhealth⟩ := hneeds
  have hoptions : job.request.method ≠ .options := by simp [hget]
  simp only [arrive, if_neg hoptions, if_neg (not_not.mpr hget), hcheck, if_neg hhealth]

/-- The arrival of a request that needs a slot is counted, whatever follows. -/
lemma requestCounted_mem_arrive (hneeds : NeedsSlot s job.request) (i now : Nat)
    (shared : Shared) : .requestCounted ∈ (arrive s job i now shared).events := by
  rw [arrive_of_needsSlot hneeds, Turn.after_events, requestSlot, Turn.after_events]
  simp

/-- A request that needs no slot is answered when it arrives, whatever the others do. -/
lemma arrive_of_not_needsSlot (hneeds : ¬ NeedsSlot s job.request) (now : Nat) :
    ∃ es r, (∀ x ∈ es, ∃ entry, x = .log entry) ∧
      ∀ i shared, arrive s job i now shared = ⟨shared, es, answered s now r⟩ := by
  by_cases hoptions : job.request.method = .options
  · simp only [arrive, if_pos hoptions]
    exact ⟨[.log _, .log _], _, by simp, fun _ _ => rfl⟩
  · by_cases hget : job.request.method = .get
    · rcases hcheck : s.secret.check job.request.fields with f | ⟨⟩
      · simp only [arrive, if_neg hoptions, if_neg (not_not.mpr hget), hcheck]
        exact ⟨[.log _, .log _], _, by simp, fun _ _ => rfl⟩
      · have hhealth : job.request.target.shown = healthPath :=
          not_not.mp fun hother => hneeds ⟨hget, hcheck, hother⟩
        simp only [arrive, if_neg hoptions, if_neg (not_not.mpr hget), hcheck, if_pos hhealth]
        exact ⟨[.log _], _, by simp, fun _ _ => rfl⟩
    · simp only [arrive, if_neg hoptions, if_pos hget]
      exact ⟨[.log _, .log _], _, by simp, fun _ _ => rfl⟩

/-- A request that finds a free slot enters. -/
lemma requestSlot_of_holds (hholds : i ∈ (shared.admission.arrive i).holders) :
    requestSlot s job i now shared = Turn.after [.requestCounted]
      (admitted s job i now { shared with admission := shared.admission.arrive i }) := by
  simp only [requestSlot, if_pos hholds]

/-- A request that finds no free slot joins the line. -/
lemma requestSlot_of_not_holds (hholds : i ∉ (shared.admission.arrive i).holders) :
    requestSlot s job i now shared =
      ⟨{ shared with admission := shared.admission.arrive i }, [.requestCounted], .queued⟩ := by
  simp only [requestSlot, if_neg hholds]
  rfl

/-- A request that needs a slot and finds a free one is admitted on its arrival. -/
lemma arrive_of_free (hneeds : NeedsSlot s job.request)
    (hout : shared.admission.standing i = .out) (hfree : 0 < shared.admission.free) :
    arrive s job i now shared =
      Turn.after [.log (.requestStarted job.request.target.shown), .requestCounted]
        (admitted s job i now { shared with admission := shared.admission.arrive i }) := by
  have hself := Admission.arrive_standing_self hout
  rw [if_pos hfree, Admission.standing_eq_holds] at hself
  rw [arrive_of_needsSlot hneeds, requestSlot_of_holds hself, Turn.after_after]
  rfl

/-- A request that needs a slot and finds all of them taken joins the line on its arrival. -/
lemma arrive_of_taken (hneeds : NeedsSlot s job.request)
    (hout : shared.admission.standing i = .out) (hfree : ¬ 0 < shared.admission.free) :
    arrive s job i now shared = ⟨{ shared with admission := shared.admission.arrive i },
      [.log (.requestStarted job.request.target.shown), .requestCounted], .queued⟩ := by
  have hself := Admission.arrive_standing_self hout
  rw [if_neg hfree] at hself
  have hholds : i ∉ (shared.admission.arrive i).holders := by
    rw [← Admission.standing_eq_holds, hself]
    decide
  rw [arrive_of_needsSlot hneeds, requestSlot_of_not_holds hholds]
  rfl

/-- A request arrives. -/
lemma move_arrive (job : Job) (now : Nat) (hfit : shared.Fits s i .expected) :
    Move s job now .expected (arrive s job i now shared).events (arrive s job i now shared).phase ∧
      (arrive s job i now shared).Settles s i shared := by
  by_cases hneeds : NeedsSlot s job.request
  · have hvalid := hfit.valid.arrive hfit.standing
    have hcapacity := (Admission.arrive_capacity shared.admission i).trans hfit.capacity
    rw [arrive_of_needsSlot hneeds]
    by_cases hholds : i ∈ (shared.admission.arrive i).holders
    · obtain ⟨hmove, hsettles⟩ :=
        @move_admitted s job i ⟨shared.admission.arrive i, shared.pool⟩ _ _ (.arrives hneeds) now
          hvalid hcapacity (Admission.standing_eq_holds.mpr hholds)
      rw [requestSlot_of_holds hholds, Turn.after_after]
      refine ⟨hmove, hsettles.fits, fun j hj => ?_⟩
      exact (hsettles.others j hj).trans (Admission.arrive_standing_of_ne hj)
    · rw [requestSlot_of_not_holds hholds]
      refine ⟨.queued hneeds, ⟨hvalid, hcapacity, ?_⟩, fun j hj => Admission.arrive_standing_of_ne hj⟩
      have hself := Admission.arrive_standing_self hfit.standing
      split at hself
      · exact absurd (Admission.standing_eq_holds.mp hself) hholds
      · exact hself
  · obtain ⟨es, r, hlogs, harrive⟩ := arrive_of_not_needsSlot hneeds now
    rw [harrive]
    exact ⟨.answered hlogs hneeds, ⟨hfit.valid, hfit.capacity, hfit.standing⟩, fun _ _ => rfl⟩

/-- A request resumes with the slot that was handed to it. -/
lemma move_resume (job : Job) (now : Nat) (hvalid : shared.admission.Valid)
    (hcapacity : shared.admission.capacity = s.capacity) (hhanded : i ∈ shared.admission.handed) :
    Move s job now .queued (resume s job i now shared).events (resume s job i now shared).phase ∧
      (resume s job i now shared).Settles s i shared := by
  obtain ⟨hmove, hsettles⟩ :=
    @move_admitted s job i ⟨shared.admission.resume i, shared.pool⟩ _ _ .resumes now
      (hvalid.resume i) ((Admission.resume_capacity _ i).trans hcapacity)
      (Admission.resume_standing_self hhanded)
  rw [Turn.after_nil] at hmove hsettles
  have hresume : resume s job i now shared =
      admitted s job i now ⟨shared.admission.resume i, shared.pool⟩ := rfl
  rw [hresume]
  refine ⟨hmove, hsettles.fits, fun j hj => ?_⟩
  exact (hsettles.others j hj).trans (Admission.resume_standing_of_ne hj)

/-! ## Going on and leaving -/

/-- The call that a request waits for ends. -/
lemma move_fire {p : Phase} {q : Pending} (hp : p.pending? = some q) (hfit : shared.Fits s i p)
    (hsource : q.stage = .download → ∀ source, q.result = .ok source →
      job.collaborators.download.answer = .ok source) :
    Move s job q.tick p (fire s job i q.tick shared p).events (fire s job i q.tick shared p).phase ∧
      (fire s job i q.tick shared p).Settles s i shared := by
  obtain ⟨w, e, hwork, hturn⟩ := @fire_works s job q.tick p q hp hsource
  obtain ⟨pool, heq⟩ := hturn i shared
  have hholds := hfit.standing.trans (Phase.standing_of_pending hp)
  simp only at heq
  rw [heq]
  exact ⟨.worked hp rfl hwork _,
    settles_work hwork hfit.valid hfit.capacity hholds pool w⟩

/-- A request that has not ended is cancelled. -/
lemma move_cancel (job : Job) (now : Nat) {p : Phase} (hfit : shared.Fits s i p)
    (hp : ∀ o, p ≠ .ended o) (htick : ∀ q, p.pending? = some q → now < q.tick) :
    Move s job now p (cancel i shared p).events (cancel i shared p).phase ∧
      (cancel i shared p).Settles s i shared := by
  cases p with
  | expected => exact ⟨.dropped, ⟨hfit.valid, hfit.capacity, hfit.standing⟩, fun _ _ => rfl⟩
  | queued => exact ⟨.left, settles_departed rfl rfl hfit.valid hfit.capacity⟩
  | downloading v tick result =>
    exact ⟨.stopped (q := ⟨.download, v.deadline, tick, result⟩) rfl (htick _ rfl) shared,
      settles_departed rfl rfl hfit.valid hfit.capacity⟩
  | processing v source tag tick result =>
    exact ⟨.stopped (q := ⟨.processing, v.deadline, tick, result⟩) rfl (htick _ rfl) shared,
      settles_departed rfl rfl hfit.valid hfit.capacity⟩
  | ended o => exact absurd rfl (hp o)

end Stage

end Gateway
