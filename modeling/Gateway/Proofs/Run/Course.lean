import Mathlib
import Gateway.Proofs.Stage.Move
import Gateway.Service.Run

/-!
# The course of one request

What happens to a request in a run only depends on the others through the shared state that its turns
find. `Task.Course` is the run as one request sees it: a series of turns at times that do not
decrease, each of them with a shared state in which the slots agree with where the request stops.
Statements about single requests go by induction along it.

Along its course a request makes moves (`Task.Takes.move`). What it waits for is always a call that it
has made (`Task.Awaits`), and it is never late: when it moves, none of its timers has gone by
(`Task.Course.punctual`).
-/

namespace Gateway

/-! ## Timers -/

namespace Task

variable {t : Task} {now : Nat} {a : Timer}

/-- The next timer is the request's own or its cancellation, whichever comes first, and at one time
its own. -/
lemma timer?_eq_some_iff : t.timer? = some a ↔
    (t.ownTime? = some a.time ∧ a.cancels = false ∧ ∀ c, t.cancelTime? = some c → a.time ≤ c) ∨
    (t.cancelTime? = some a.time ∧ a.cancels = true ∧ ∀ c, t.ownTime? = some c → a.time < c) := by
  obtain ⟨time, cancels⟩ := a
  unfold timer?
  rcases t.ownTime? with _ | own <;> rcases t.cancelTime? with _ | cancel
  · simp
  · simp [eq_comm]
  · simp [eq_comm]
  · by_cases hle : own ≤ cancel
    · simp only [hle, if_true, Option.some.injEq, Timer.mk.injEq]
      constructor
      · rintro ⟨rfl, rfl⟩
        exact .inl ⟨rfl, rfl, fun c hc => hc ▸ hle⟩
      · rintro (⟨rfl, rfl, -⟩ | ⟨rfl, rfl, hlt⟩)
        · exact ⟨rfl, rfl⟩
        · exact absurd (hlt own rfl) (Nat.not_lt.mpr hle)
    · simp only [hle, if_false, Option.some.injEq, Timer.mk.injEq]
      constructor
      · rintro ⟨rfl, rfl⟩
        exact .inr ⟨rfl, rfl, fun c hc => hc ▸ Nat.lt_of_not_le hle⟩
      · rintro (⟨rfl, rfl, hge⟩ | ⟨rfl, rfl, -⟩)
        · exact absurd (hge cancel rfl) hle
        · exact ⟨rfl, rfl⟩

/-- The next timer is not later than the cancellation. -/
lemma time_le_of_cancelTime? (h : t.timer? = some a) {c : Nat} (hc : t.cancelTime? = some c) :
    a.time ≤ c := by
  rcases timer?_eq_some_iff.mp h with ⟨-, -, hle⟩ | ⟨hcancel, -, -⟩
  · exact hle c hc
  · rw [hcancel] at hc
    exact (Option.some.inj hc).le

/-- The next timer is not later than the request's own. -/
lemma time_le_of_ownTime? (h : t.timer? = some a) {c : Nat} (hc : t.ownTime? = some c) :
    a.time ≤ c := by
  rcases timer?_eq_some_iff.mp h with ⟨hown, -, -⟩ | ⟨-, -, hlt⟩
  · rw [hown] at hc
    exact (Option.some.inj hc).le
  · exact (hlt c hc).le

/-- A request that goes on by itself or is cancelled at a time has a timer that is not later. -/
lemma exists_timer?_le {c : Nat} (hc : t.ownTime? = some c ∨ t.cancelTime? = some c) :
    ∃ a, t.timer? = some a ∧ a.time ≤ c := by
  obtain ⟨a, ha⟩ : ∃ a, t.timer? = some a := by
    unfold timer?
    rcases hc with hc | hc <;> rw [hc]
    · rcases t.cancelTime? with _ | _ <;> exact ⟨_, rfl⟩
    · rcases t.ownTime? with _ | _ <;> exact ⟨_, rfl⟩
  exact ⟨a, ha, hc.elim (time_le_of_ownTime? ha) (time_le_of_cancelTime? ha)⟩

/-- A request goes on by itself when it arrives or when the call that it waits for ends. -/
lemma ownTime?_eq_some_iff : t.ownTime? = some now ↔
    (t.phase = .expected ∧ t.job.arrival = now) ∨ ∃ q, t.phase.pending? = some q ∧ q.tick = now := by
  unfold ownTime?
  rcases t.phase <;> simp [Phase.pending?]

/-- The cancellation of a request that has not ended is the one that its job names. -/
lemma cancelTime?_eq_some_iff {c : Nat} :
    t.cancelTime? = some c ↔ (∀ o, t.phase ≠ .ended o) ∧ t.job.cancelAt = some c := by
  unfold cancelTime? hasEnded
  rcases t.phase <;> simp

/-- A request whose own timer is due arrives, or the call ends that it waits for. -/
lemma phase_of_fires (h : t.timer? = some ⟨now, false⟩) :
    (t.phase = .expected ∧ t.job.arrival = now) ∨ ∃ q, t.phase.pending? = some q ∧ q.tick = now := by
  rcases timer?_eq_some_iff.mp h with ⟨hown, -, -⟩ | ⟨-, hcancels, -⟩
  · exact ownTime?_eq_some_iff.mp hown
  · cases hcancels

/-- A request whose cancellation is due has not ended, and its own timer, if it has one, lies after
it. -/
lemma phase_of_cancels (h : t.timer? = some ⟨now, true⟩) :
    (∀ o, t.phase ≠ .ended o) ∧ t.job.cancelAt = some now ∧
      ∀ c, t.ownTime? = some c → now < c := by
  rcases timer?_eq_some_iff.mp h with ⟨-, hcancels, -⟩ | ⟨hcancel, -, hlt⟩
  · cases hcancels
  · obtain ⟨hopen, hjob⟩ := cancelTime?_eq_some_iff.mp hcancel
    exact ⟨hopen, hjob, hlt⟩

/-- The outcome of a request tells where it has stopped. -/
lemma outcome?_eq_some_iff {o : Outcome} : t.outcome? = some o ↔ t.phase = .ended o := by
  unfold outcome?
  rcases t.phase <;> simp

/-- A request that has ended has stopped for good. -/
lemma hasEnded_iff : t.hasEnded = true ↔ ∃ o, t.phase = .ended o := by
  unfold hasEnded
  rcases t.phase <;> simp

end Task

/-! ## Courses -/

/-- The request after a move at a millisecond. -/
def Task.moved (t : Task) (now : Nat) (es : List Event) (p : Phase) : Task :=
  ⟨t.job, p, t.trace ++ es.map fun e => (now, e)⟩

/-- The request after a turn at a millisecond. -/
def Task.after (t : Task) (now : Nat) (turn : Turn) : Task := t.moved now turn.events turn.phase

@[simp] lemma Task.after_phase (t : Task) (now : Nat) (turn : Turn) :
    (t.after now turn).phase = turn.phase :=
  rfl

@[simp] lemma Task.after_job (t : Task) (now : Nat) (turn : Turn) :
    (t.after now turn).job = t.job :=
  rfl

/-- The turns that a request at a place can take at a millisecond. -/
inductive Task.Takes (s : Service) (t : Task) (now i : Nat) (shared : Shared) : Turn → Prop
  | fires (htimer : t.timer? = some ⟨now, false⟩) :
      Takes s t now i shared (Stage.fire s t.job i now shared t.phase)
  | cancels (htimer : t.timer? = some ⟨now, true⟩) :
      Takes s t now i shared (Stage.cancel i shared t.phase)
  | resumes (hphase : t.phase = .queued) (hhanded : i ∈ shared.admission.handed)
      (hcancel : ∀ c, t.job.cancelAt = some c → now ≤ c) :
      Takes s t now i shared (Stage.resume s t.job i now shared)

/-- How a request can have come to where it is at the millisecond of its last turn. -/
inductive Task.Course (s : Service) : Nat → Task → Prop
  | expected (job : Job) : Course s 0 (.ofJob job)
  | turn {last now i : Nat} {shared : Shared} {t : Task} {turn : Turn} (ht : Course s last t)
      (hle : last ≤ now) (hfit : shared.Fits s i t.phase) (htakes : t.Takes s now i shared turn) :
      Course s now (t.after now turn)

/-- What a request waits for is a call that it has made while its deadline was open. -/
def Task.Awaits (t : Task) (q : Pending) : Prop :=
  ∃ start x c ending, (start, x) ∈ t.trace ∧ Stage.Asks t.job start q.deadline q.stage x c ∧
    q.deadline.isExpired (instantOf start) = false ∧
    q.deadline.run (instantOf start) c = (ending, q.result) ∧ Deadline.tickOf ending = q.tick ∧
    start < q.tick

/-- A call does not end before it is made. -/
lemma Deadline.le_tickOf_of_run {α : Type} {d : Deadline} {n ending : Nat} {c : Call α}
    {result : Except Failure α} (h : d.run (instantOf n) c = (ending, result)) :
    n ≤ Deadline.tickOf ending := by
  have hle : instantOf n ≤ ending := by
    rcases hanswer : c.answer with f | a <;> simp only [run, hanswer] at h <;>
      split at h <;> cases h <;> exact Nat.le_add_right _ _
  calc n = Deadline.tickOf (instantOf n) := (tickOf_instantOf n).symm
    _ ≤ Deadline.tickOf ending := Nat.div_le_div_right hle

namespace Stage

variable {s : Service} {job : Job} {now : Nat}

/-- Work that ends in waiting has just made the call. -/
lemma Work.pending {d : Deadline} {k : Point} {w : List Event} {e : Ending}
    (h : Work job now d k w e) {p : Phase} (he : e = .waits p) {q : Pending}
    (hq : p.pending? = some q) :
    q.deadline = d ∧ ∃ x c ending, x ∈ w ∧ Asks job now q.deadline q.stage x c ∧
      q.deadline.isExpired (instantOf now) = false ∧
      q.deadline.run (instantOf now) c = (ending, q.result) ∧ Deadline.tickOf ending = q.tick ∧
      now < q.tick := by
  induction h with
  | fails | unchanged | counts | spoils | encodes => cases he
  | calls _ _ _ _ _ ih | downloaded _ _ ih | processed _ _ ih =>
    obtain ⟨hd, x, c, ending, hx, hrest⟩ := ih he
    exact ⟨hd, x, c, ending, List.mem_cons_of_mem _ hx, hrest⟩
  | quiet _ _ ih => exact ih he
  | @waits _ x c ending _ _ hask hopen hrun htick hp =>
    obtain rfl := Ending.waits.inj he
    obtain rfl := Option.some.inj (hp.symm.trans hq)
    have hle := Deadline.le_tickOf_of_run hrun
    exact ⟨rfl, x, c, ending, List.mem_singleton_self x, hask, hopen, hrun, rfl,
      lt_of_le_of_ne hle (Ne.symm htick)⟩

/-- After an ending a request waits for a collaborator only if the work ended in waiting. -/
lemma Ending.eq_waits {e : Ending} {q : Pending} (h : (e.phase s now).pending? = some q) :
    e = .waits (e.phase s now) := by
  rcases e with p | ⟨img, f | r⟩
  · rfl
  · cases h
  · cases h

/-- A move that ends in waiting for a collaborator has just made the call. -/
lemma Move.pending {p p' : Phase} {es : List Event} (h : Move s job now p es p') {q : Pending}
    (hq : p'.pending? = some q) :
    ∃ x c ending, x ∈ es ∧ Asks job now q.deadline q.stage x c ∧
      q.deadline.isExpired (instantOf now) = false ∧
      q.deadline.run (instantOf now) c = (ending, q.result) ∧ Deadline.tickOf ending = q.tick ∧
      now < q.tick := by
  cases h with
  | answered | queued | panicked | dropped | left | stopped => cases hq
  | admitted hentry hstart hwork n shared =>
    obtain ⟨-, x, c, ending, hx, hrest⟩ := hwork.pending (Ending.eq_waits hq) hq
    exact ⟨x, c, ending, by simp [hx], hrest⟩
  | worked hp htick hwork shared =>
    obtain ⟨-, x, c, ending, hx, hrest⟩ := hwork.pending (Ending.eq_waits hq) hq
    exact ⟨x, c, ending, by simp [hx], hrest⟩

/-- No move leads back to before the arrival. -/
lemma Move.ne_expected {p p' : Phase} {es : List Event} (h : Move s job now p es p') :
    p' ≠ .expected := by
  intro heq
  cases h with
  | answered | queued | panicked | dropped | left | stopped => cases heq
  | admitted _ _ hwork _ _ | worked _ _ hwork _ =>
    rcases hwork.phase_cases s with hholds | ⟨o, ho⟩
    · rw [heq] at hholds
      cases hholds
    · cases heq.symm.trans ho

/-- Only a request that needs a slot joins the line. -/
lemma Move.needsSlot {p p' : Phase} {es : List Event} (h : Move s job now p es p')
    (hp : p' = .queued) : NeedsSlot s job.request := by
  cases h with
  | queued hneeds => exact hneeds
  | answered | panicked | dropped | left | stopped => cases hp
  | admitted _ _ hwork _ _ | worked _ _ hwork _ =>
    rcases hwork.phase_cases s with hholds | ⟨o, ho⟩
    · rw [hp] at hholds
      cases hholds
    · cases hp.symm.trans ho

end Stage

namespace Task

variable {s : Service} {t : Task} {now i last : Nat} {shared : Shared} {turn : Turn}

/-- The source that a request waits for is the one that its download answers with. -/
lemma Awaits.source {q : Pending} (h : t.Awaits q) (hdownload : q.stage = .download)
    {source : Bytes} (hok : q.result = .ok source) :
    t.job.collaborators.download.answer = .ok source := by
  obtain ⟨start, x, c, ending, -, hask, -, hrun, -, -⟩ := h
  rw [hdownload] at hask
  rw [hok] at hrun
  cases hask
  exact Deadline.answer_of_run hrun

/-- Every turn is a move and leaves the slots in order. -/
lemma Takes.move (h : t.Takes s now i shared turn) (hfit : shared.Fits s i t.phase)
    (hawaits : ∀ q, t.phase.pending? = some q → t.Awaits q) :
    Stage.Move s t.job now t.phase turn.events turn.phase ∧ turn.Settles s i shared := by
  cases h with
  | fires htimer =>
    rcases phase_of_fires htimer with ⟨hphase, -⟩ | ⟨q, hq, rfl⟩
    · rw [hphase] at hfit ⊢
      exact Stage.move_arrive t.job now hfit
    · exact Stage.move_fire hq hfit fun hdownload source hok => (hawaits q hq).source hdownload hok
  | cancels htimer =>
    obtain ⟨hopen, -, hlt⟩ := phase_of_cancels htimer
    refine Stage.move_cancel t.job now hfit hopen fun q hq => ?_
    exact hlt q.tick (ownTime?_eq_some_iff.mpr (.inr ⟨q, hq, rfl⟩))
  | resumes hphase hhanded hcancel =>
    rw [hphase] at hfit ⊢
    exact Stage.move_resume t.job now hfit.valid hfit.capacity hhanded

/-- A request that goes on after a turn is not cancelled before it. -/
lemma Takes.le_cancelAt (h : t.Takes s now i shared turn) (hphase : ∀ o, turn.phase ≠ .ended o)
    {c : Nat} (hc : t.job.cancelAt = some c) : now ≤ c := by
  cases h with
  | fires htimer =>
    by_cases hended : ∃ o, t.phase = .ended o
    · obtain ⟨o, ho⟩ := hended
      rw [ho] at hphase
      exact absurd rfl (hphase o)
    · exact time_le_of_cancelTime? htimer
        (cancelTime?_eq_some_iff.mpr ⟨not_exists.mp hended, hc⟩)
  | cancels htimer =>
    rcases hp : t.phase with _ | _ | _ | _ | o <;> rw [hp] at hphase <;>
      exact absurd rfl (hphase _)
  | resumes _ _ hcancel => exact hcancel c hc

namespace Course

/-- Along its course a request waits for calls that it has made. -/
lemma awaits (h : Course s last t) {q : Pending} (hq : t.phase.pending? = some q) :
    t.Awaits q := by
  induction h generalizing q with
  | expected job => cases hq
  | @turn _ now _ _ t turn ht _ hfit htakes ih =>
    obtain ⟨hmove, -⟩ := htakes.move hfit fun q hq => ih hq
    obtain ⟨x, c, ending, hx, hrest⟩ := hmove.pending hq
    exact ⟨now, x, c, ending, List.mem_append_right _ (List.mem_map_of_mem hx), hrest⟩

/-- What a request does when the call ends that it waits for is work. -/
lemma works (h : Course s last t) {q : Pending} (hq : t.phase.pending? = some q) (now i : Nat)
    (shared : Shared) : ∃ w e, Stage.Work t.job now q.deadline (.after q.stage q.result) w e ∧
      ∃ pool, Stage.fire s t.job i now shared t.phase =
        e.turn s i now { shared with pool := pool } w := by
  obtain ⟨w, e, hwork, hturn⟩ := @Stage.fire_works s t.job now t.phase q hq
    fun hdownload source hok => (h.awaits hq).source hdownload hok
  exact ⟨w, e, hwork, hturn i shared⟩

/-- Statements about requests hold along their courses if moves keep them. -/
theorem moves {P : Nat → Task → Prop} (hstart : ∀ job, P 0 (.ofJob job))
    (hmove : ∀ {last now t es p}, Course s last t → P last t → last ≤ now →
      Stage.Move s t.job now t.phase es p → P now (t.moved now es p))
    (h : Course s last t) : P last t := by
  induction h with
  | expected job => exact hstart job
  | turn ht hle hfit htakes ih =>
    exact hmove ht ih hle (htakes.move hfit fun _ hq => ht.awaits hq).1

/-- When a request has moved, none of its timers has gone by. -/
lemma punctual (h : Course s last t) {a : Timer} (ha : t.timer? = some a) : last ≤ a.time := by
  cases h with
  | expected job => exact Nat.zero_le _
  | turn ht hle hfit htakes =>
    have hmove := (htakes.move hfit fun _ hq => ht.awaits hq).1
    rcases timer?_eq_some_iff.mp ha with ⟨hown, -, -⟩ | ⟨hcancel, -, -⟩
    · rcases ownTime?_eq_some_iff.mp hown with ⟨hphase, -⟩ | ⟨q, hq, htick⟩
      · exact absurd hphase hmove.ne_expected
      · obtain ⟨x, c, ending, -, -, -, -, -, hlt⟩ := hmove.pending hq
        omega
    · obtain ⟨hphase, hc⟩ := cancelTime?_eq_some_iff.mp hcancel
      exact htakes.le_cancelAt hphase hc

/-- A request in the line needs a slot. -/
lemma needsSlot (h : Course s last t) (hphase : t.phase = .queued) :
    Stage.NeedsSlot s t.job.request := by
  cases h with
  | expected job => cases hphase
  | turn ht hle hfit htakes =>
    exact (htakes.move hfit fun _ hq => ht.awaits hq).1.needsSlot hphase

end Course

end Task

end Gateway
