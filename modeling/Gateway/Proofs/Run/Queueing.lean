import Mathlib
import Gateway.Proofs.Admission.Line
import Gateway.Proofs.Run.Arrival
import Gateway.Proofs.Run.Budget
import Gateway.Proofs.Run.Isolation

/-!
# How long a request waits for a slot

A request that finds all slots taken joins the line, and every request inside has a fixed time. So one
can say when a request asks for admission how long it will wait at most: if it finds `k` requests that
hold a slot or wait for one, and there are `c` slots, it waits for `k / c` times the time of a request
(`Run.waitEnd`, `Run.prompt_of_leads`). This does not depend on the collaborators, nor on who is
cancelled.

The proof looks at the line whenever one of these times is over. While the request waits, all slots are
taken when the clock moves (`Run.Sound.insideSince_eq_capacity`), and whoever was inside when one time
was over has left when the next one is (`Run.Sound.insideSince_eq_zero`). Whenever a request leaves, those
that wait move up (`Run.Sound.line_act`). So each of these times brings the request forward by `c`
places, and the invariant `Run.MovesUp` says that it has come that far, up to the requests inside that
are still to leave.
-/

namespace Gateway

open scoped List

/-! ## Turns and the line -/

namespace Stage

variable {s : Service} {job : Job} {i now : Nat} {shared : Shared}

/-- At the end of its work a request leaves or keeps its slot. -/
lemma touched_turn (e : Ending) (w : List Event) :
    shared.admission.Touched i (e.turn s i now shared w).shared.admission := by
  cases e with
  | waits p => exact .keeps
  | leaves img result => exact .leaves .keeps

/-- A request that is admitted leaves in the same turn or keeps its slot. -/
lemma touched_admitted :
    shared.admission.Touched i (admitted s job i now shared).shared.admission := by
  rcases hstart : Deadline.start? (instantOf now) s.writeTimeout with _ | d
  · rw [admitted_panics hstart]
    exact .leaves .keeps
  · obtain ⟨w, e, -, hturn⟩ := @admitted_works s job now d hstart
    obtain ⟨pool, heq⟩ := hturn i shared
    rw [heq]
    exact @touched_turn s i now { shared with pool := pool } e _

/-- A request that arrives may ask for a slot. -/
lemma touched_arrive (hout : shared.admission.standing i = .out) :
    shared.admission.Touched i (arrive s job i now shared).shared.admission := by
  by_cases hneeds : NeedsSlot s job.request
  · have harrives := (Admission.Touched.keeps (a := shared.admission) (q := i)).arrives hout
    rw [arrive_of_needsSlot hneeds, Turn.after_shared]
    by_cases hholds : i ∈ (shared.admission.arrive i).holders
    · rw [requestSlot_of_holds hholds, Turn.after_shared]
      exact harrives.trans
        (@touched_admitted s job i now { shared with admission := shared.admission.arrive i })
    · rw [requestSlot_of_not_holds hholds]
      exact harrives
  · obtain ⟨es, r, -, harrive⟩ := arrive_of_not_needsSlot hneeds now
    rw [harrive]
    exact .keeps

/-- A request does not ask for admission while it works or leaves. -/
lemma Work.not_asks {d : Deadline} {k : Point} {w : List Event} {e : Ending}
    (h : Work job now d k w e) (shared : Shared) : .requestCounted ∉ w ++ e.events shared := by
  intro hx
  rcases List.mem_append.mp hx with hw | he
  · rcases h.mem_cases hw with ⟨stage, c, hask⟩ | ⟨_, heq⟩ | ⟨_, heq⟩ | ⟨_, heq⟩
    · cases hask
    · cases heq
    · cases heq
    · cases heq
  · rcases e with p | ⟨img, f | ⟨r, entry⟩⟩
    · cases he
    · cases img <;> simp [Ending.events, departureEvents] at he
    · cases img <;> simp [Ending.events, departureEvents] at he

/-- A request asks for admission when it arrives, if it needs a slot. -/
lemma Move.asks {p p' : Phase} {es : List Event} (h : Move s job now p es p')
    (hx : .requestCounted ∈ es) : p = .expected ∧ NeedsSlot s job.request := by
  have hentry {q : Phase} {front rest : List Event} (hentry : Entry s job q front)
      (hx : .requestCounted ∈ front ++ rest) (hrest : .requestCounted ∉ rest) :
      q = .expected ∧ NeedsSlot s job.request := by
    cases hentry with
    | arrives hneeds => exact ⟨rfl, hneeds⟩
    | resumes => exact absurd hx hrest
  have hdeparture (shared : Shared) (img : Bool) :
      .requestCounted ∉ departureEvents shared img := by
    cases img <;> simp [departureEvents]
  cases h with
  | answered hlogs =>
    obtain ⟨entry, heq⟩ := hlogs _ hx
    cases heq
  | queued hneeds => exact ⟨rfl, hneeds⟩
  | panicked hent _ n shared =>
    refine hentry hent hx ?_
    simp [hdeparture shared false]
  | admitted hent _ hwork n shared =>
    refine hentry hent hx ?_
    have hnot := hwork.not_asks shared
    simpa using hnot
  | worked _ _ hwork shared => exact absurd hx (hwork.not_asks shared)
  | dropped => cases hx
  | left => simp at hx
  | stopped _ _ shared => exact absurd hx (hdeparture shared _)

end Stage

namespace Task

variable {s : Service} {last now i : Nat} {shared : Shared} {t : Task} {turn : Turn}

/-- A turn of a request only changes what the request itself has of the slots. -/
lemma Takes.touched (h : t.Takes s now i shared turn) (ht : Course s last t)
    (hfit : shared.Fits s i t.phase) : shared.admission.Touched i turn.shared.admission := by
  cases h with
  | fires htimer =>
    rcases phase_of_fires htimer with ⟨hphase, -⟩ | ⟨q, hq, -⟩
    · rw [hphase] at hfit ⊢
      exact Stage.touched_arrive hfit.standing
    · obtain ⟨w, e, -, pool, heq⟩ := ht.works hq now i shared
      rw [heq]
      exact @Stage.touched_turn s i now { shared with pool := pool } e w
  | cancels =>
    rcases t.phase with _ | _ | _ | _ | _
    · exact .keeps
    · exact .leaves .keeps
    · exact .leaves .keeps
    · exact .leaves .keeps
    · exact .keeps
  | resumes =>
    have hresumes := (Admission.Touched.keeps (a := shared.admission) (q := i)).resumes
    exact hresumes.trans
      (@Stage.touched_admitted s t.job i now { shared with admission := shared.admission.resume i })

/-- A turn with which a request asks for admission is its arrival. It has not been admitted then, and it
has nothing to do with the slots yet. -/
lemma Takes.asks (h : t.Takes s now i shared turn) (ht : Course s last t)
    (hfit : shared.Fits s i t.phase) (hx : .requestCounted ∈ turn.events) :
    t.visit = [] ∧ shared.admission.standing i = .out ∧ Stage.NeedsSlot s t.job.request ∧
      turn = Stage.arrive s t.job i now shared := by
  obtain ⟨hphase, hneeds⟩ := (h.move hfit fun q hq => ht.awaits hq).1.asks hx
  have hgauges := ht.gauges.1
  have hstanding := hfit.standing
  rw [hphase] at hgauges hstanding
  refine ⟨visit_eq_nil_iff.mpr hgauges, hstanding, hneeds, ?_⟩
  cases h with
  | fires =>
    rw [hphase]
    rfl
  | cancels =>
    rw [hphase] at hx
    cases hx
  | resumes hqueued => cases hphase.symm.trans hqueued

/-- A request that takes the turn of those that are admitted is admitted then. -/
lemma grantTime?_of_admission {front : List Event} (hvisit : t.visit = [])
    (hfront : front.countP Event.isGauge = 0) :
    (t.after now (Turn.after front (Stage.admitted s t.job i now shared))).grantTime? = some now := by
  obtain ⟨n, rest, hrest⟩ := Stage.admitted_events s t.job i now shared
  rw [grantTime?, visit_of_admission hvisit hfront, hrest]
  rfl

/-- A request that has published nothing in a turn has not been admitted with it. -/
lemma visit_after_of_quiet (hvisit : t.visit = []) (hquiet : turn.events.countP Event.isGauge = 0) :
    (t.after now turn).visit = [] := by
  rw [visit_eq_nil_iff, after, events_moved, List.countP_append, visit_eq_nil_iff.mp hvisit, hquiet]

/-- With a turn of its own a request in the line resumes or is cancelled. -/
lemma Takes.of_queued (h : t.Takes s now i shared turn) (hphase : t.phase = .queued)
    (hvisit : t.visit = []) :
    (i ∈ shared.admission.handed ∧ (t.after now turn).grantTime? = some now) ∨
      turn.phase = .ended .cancelled ∧ (t.after now turn).visit = [] ∧
        t.job.cancelAt = some now := by
  cases h with
  | fires htimer =>
    rcases phase_of_fires htimer with ⟨hexpected, -⟩ | ⟨q, hq, -⟩
    · cases hphase.symm.trans hexpected
    · rw [hphase] at hq
      cases hq
  | cancels htimer =>
    obtain ⟨-, hcancel, -⟩ := phase_of_cancels htimer
    rw [hphase]
    exact .inr ⟨rfl, visit_after_of_quiet hvisit rfl, hcancel⟩
  | resumes _ hhanded =>
    have hgrant := @grantTime?_of_admission s now i
      { shared with admission := shared.admission.resume i } t [] hvisit rfl
    rw [Turn.after_nil] at hgrant
    exact .inl ⟨hhanded, hgrant⟩

end Task

/-! ## Requests inside -/

/-- Whether a request is inside and was admitted by a millisecond. -/
def Task.isInsideSince (time : Nat) (t : Task) : Bool := t.isInside && t.grantTime?.any (· ≤ time)

/-- A request is inside since a millisecond if it is inside and was admitted by then. -/
lemma Task.isInsideSince_iff {time : Nat} {t : Task} : t.isInsideSince time = true ↔
    t.isInside = true ∧ ∃ grant, t.grantTime? = some grant ∧ grant ≤ time := by
  unfold isInsideSince
  rw [Bool.and_eq_true]
  rcases t.grantTime? with _ | grant <;> simp

namespace Run

/-- Whether the clock can be at a millisecond when something happens next. -/
structure MayPass (r : Run) (now : Nat) : Prop where
  le : r.clock ≤ now
  first : ∀ u ∈ r.tasks, ∀ b, u.timer? = some b → now ≤ b.time
  /-- Time does not pass while a slot is on its way to a request. -/
  still : r.clock < now → r.shared.admission.handed = []

/-- The number of requests inside that were admitted by a millisecond. -/
def insideSince (r : Run) (time : Nat) : Nat := r.tasks.countP (Task.isInsideSince time)

/-- The requests in front of another one in the line. -/
def ahead (r : Run) (i : Nat) : List Nat := r.shared.admission.ahead i

variable {s : Service} {jobs : List Job} {r : Run} {limit now time : Nat}

/-- When nothing is left to happen by a time, the clock can pass it. -/
lemma StoppedAt.mayPass {horizon : Nat} (h : r.StoppedAt horizon) : r.MayPass (horizon + 1) where
  le := h.1.trans (Nat.le_succ _)
  first _ hu b hb := h.late hu b hb
  still _ := (next?_eq_none h.2).1

namespace Sound

/-- A request holds a slot exactly if it is inside. -/
lemma mem_holders_iff (hr : r.Sound s jobs) {j : Nat} {t : Task} (ht : r.tasks[j]? = some t) :
    j ∈ r.shared.admission.holders ↔ t.isInside = true := by
  obtain ⟨last, -, hcourse⟩ := hr.course t (List.mem_of_getElem? ht)
  rw [hcourse.isInside_iff, ← Admission.standing_eq_holds, (hr.fits ht).standing]

/-- A request that waits for a slot, or to which one has been handed, is in the line. -/
lemma queued_of_waits (hr : r.Sound s jobs) {j : Nat} {t : Task} (ht : r.tasks[j]? = some t)
    (hj : j ∈ r.shared.admission.handed ∨ j ∈ r.shared.admission.waiting) : t.phase = .queued := by
  have hnot : j ∉ r.shared.admission.holders := by
    rcases hj with hhanded | hwaits
    · exact (hr.valid.not_mem_of_handed hhanded).1
    · exact (hr.valid.not_mem_of_waits hwaits).1
  have hstanding := (hr.fits ht).standing
  rw [Admission.standing_eq_waits.mpr ⟨hnot, hj⟩] at hstanding
  exact Phase.eq_queued hstanding.symm

/-- An action that may happen moves the clock to where it can be. -/
lemma mayPass (hr : r.Sound s jobs) {a : Action} (ha : r.Allowed a) : r.MayPass (r.act s a).clock := by
  obtain ⟨t, ht, hle, hfirst, -⟩ := hr.takes ha
  rw [act_of_task ht]
  refine ⟨hle, hfirst, fun hlt => ?_⟩
  cases ha with
  | @due i u a htask htimer hdue =>
    have hnow : (r.turn s t (.timer i a)).1 = max r.clock a.time := rfl
    rw [hnow, max_eq_left hdue] at hlt
    exact absurd hlt (lt_irrefl _)
  | idle _ _ hhanded => exact hhanded
  | resumes => exact absurd hlt (lt_irrefl _)

variable (hr : r.Sound s jobs) (hlimit : s.writeTimeout = .ofMillis limit)
include hr hlimit

/-- A request inside has been admitted by now, and the clock does not pass the end of its time. -/
lemma grant_of_inside {u : Task} (hu : u ∈ r.tasks) (hinside : u.isInside = true) :
    ∃ grant, u.grantTime? = some grant ∧ grant ≤ r.clock ∧
      ∀ now, r.MayPass now → now ≤ grant + limit := by
  obtain ⟨last, hlast, hcourse⟩ := hr.course u hu
  obtain ⟨hvisit, hopen⟩ : u.visit ≠ [] ∧ ¬ u.hasEnded = true := by
    simpa [Task.isInside] using hinside
  obtain ⟨grant, hgrant⟩ := Option.ne_none_iff_exists'.mp (mt Task.grantTime?_eq_none_iff.mp hvisit)
  have hstay := hcourse.stay hgrant
  obtain ⟨q, hq⟩ := hstay.exists_pending fun o ho => hopen (Task.hasEnded_iff.mpr ⟨o, ho⟩)
  obtain ⟨a, ha, htime⟩ :=
    Task.exists_timer?_le (.inl (Task.ownTime?_eq_some_iff.mpr (.inr ⟨q, hq, rfl⟩)))
  refine ⟨grant, hgrant, (hstay.within hlimit).1.trans hlast, fun now hpass => ?_⟩
  calc now ≤ a.time := hpass.first u hu a ha
    _ ≤ q.tick := htime
    _ ≤ grant + limit := (hstay.pending hlimit hq).2.2

/-- When all slots are taken and none is on its way, they belong to requests that are inside by now. -/
lemma insideSince_eq_capacity (hfree : r.shared.admission.free = 0)
    (hhanded : r.shared.admission.handed = []) (hle : r.clock ≤ time) :
    r.insideSince time = s.capacity := by
  have hsum := hr.valid.sum
  rw [hfree, hhanded, hr.capacity, List.length_nil, Nat.zero_add, Nat.add_zero] at hsum
  rw [← hsum, ← hr.countP_isInside]
  apply List.countP_congr
  intro u hu
  rw [Task.isInsideSince_iff]
  constructor
  · exact fun h => h.1
  · intro hinside
    obtain ⟨grant, hgrant, hclock, -⟩ := hr.grant_of_inside hlimit hu hinside
    exact ⟨hinside, grant, hgrant, hclock.trans hle⟩

/-- A request that was inside before its time has left after it. -/
lemma insideSince_eq_zero (hpass : r.MayPass now) (hlt : time + limit < now) :
    r.insideSince time = 0 := by
  apply List.countP_eq_zero.mpr
  intro u hu
  rw [Task.isInsideSince_iff]
  rintro ⟨hinside, grant', hgrant', hle⟩
  obtain ⟨grant, hgrant, -, hend⟩ := hr.grant_of_inside hlimit hu hinside
  obtain rfl := Option.some.inj (hgrant.symm.trans hgrant')
  have hnow := hend now hpass
  omega

omit hlimit in
/-- There are never more requests inside than slots. -/
lemma insideSince_le_capacity (time : Nat) : r.insideSince time ≤ s.capacity := by
  have hsum := hr.valid.sum
  have hinside := hr.countP_isInside
  have hle : r.insideSince time ≤ r.tasks.countP Task.isInside := by
    apply List.countP_mono_left
    intro u _ h
    exact (Task.isInsideSince_iff.mp h).1
  rw [hr.capacity] at hsum
  omega

end Sound

/-! ## Moving up -/

/-- The end of the wait of a request that has asked for admission at a millisecond and has found `k`
others: it waits for one time limit per full set of slots among them. -/
def waitEnd (s : Service) (limit start k : Nat) : Nat := start + k / s.capacity * limit

/-- When the request at one place in a list is replaced, a count changes by that request only. -/
lemma countP_le_countP_set {P : Task → Bool} {ts : List Task} {j : Nat} {t : Task}
    (ht : ts[j]? = some t) (t' : Task) :
    ts.countP P ≤ (ts.set j t').countP P + 1 ∧
      (P t = false ∨ P t' = true → ts.countP P ≤ (ts.set j t').countP P) := by
  obtain ⟨hlt, rfl⟩ := List.getElem?_eq_some_iff.mp ht
  rw [List.countP_set hlt]
  rcases hP : P ts[j] with _ | _ <;> rcases hP' : P t' with _ | _ <;> simp
  all_goals omega

namespace Sound

/-- An action only changes what the request that it is about has of the slots. -/
lemma touched (hr : r.Sound s jobs) {a : Action} (ha : r.Allowed a) :
    r.shared.admission.Touched a.place (r.act s a).shared.admission := by
  obtain ⟨t, ht, -⟩ := hr.takes ha
  obtain ⟨htakes, last, hcourse⟩ := hr.takes_of_task ha ht
  rw [act_of_task ht]
  exact htakes.touched hcourse (hr.fits ht)

/-- Those who were inside by a millisecond still are after an action, but for one who gives back its
slot. -/
lemma insideSince_act (hr : r.Sound s jobs) {a : Action} (ha : r.Allowed a) (time : Nat) :
    r.insideSince time ≤ (r.act s a).insideSince time ∨
      r.insideSince time ≤ (r.act s a).insideSince time + 1 ∧
        a.place ∈ r.shared.admission.holders ∧ a.place ∉ (r.act s a).shared.admission.holders := by
  obtain ⟨t, ht, -⟩ := hr.takes ha
  have ht' := tasks_act_self (s := s) ht
  generalize hnext : t.after (r.turn s t a).1 (r.turn s t a).2 = t' at ht'
  have hcount : (r.act s a).insideSince time =
      (r.tasks.set a.place t').countP (Task.isInsideSince time) := by
    rw [act_of_task ht, insideSince, hnext]
  obtain ⟨hone, hsame⟩ := countP_le_countP_set (P := Task.isInsideSince time) ht t'
  rw [← hcount] at hone hsame
  by_cases hkept : t.isInsideSince time = false ∨ t'.isInsideSince time = true
  · exact .inl (hsame hkept)
  · right
    obtain ⟨hbefore, hafter⟩ := not_or.mp hkept
    rw [Bool.not_eq_false, Task.isInsideSince_iff] at hbefore
    obtain ⟨hinside, grant, hgrant, hgranted⟩ := hbefore
    refine ⟨hone, (hr.mem_holders_iff ht).mpr hinside, fun hstays => ?_⟩
    -- it has not left if it still has its slot, since it is admitted only once
    have hinside' := ((hr.step (hr.advance ha)).mem_holders_iff ht').mp hstays
    have hkeeps : t'.grantTime? = some grant := hnext ▸ Task.grantTime?_after hgrant _ _
    exact hafter (Task.isInsideSince_iff.mpr ⟨hinside', grant, hkeeps, hgranted⟩)

/-- When another request takes its turn, one that waits is handed a slot or stays in the line. Then
nobody new is in front of it, and it moves up if the other one has left. -/
lemma line_act (hr : r.Sound s jobs) {a : Action} (ha : r.Allowed a) {i : Nat}
    (hi : i ∈ r.shared.admission.waiting) (hne : a.place ≠ i) :
    i ∈ (r.act s a).shared.admission.handed ∨ i ∈ (r.act s a).shared.admission.waiting ∧
      (r.act s a).ahead i <+ r.ahead i ∧ ∀ time, r.insideSince time + ((r.act s a).ahead i).length ≤
        (r.act s a).insideSince time + (r.ahead i).length := by
  rcases (hr.touched ha).line hr.valid hi hne with hhanded | ⟨hwaits, hsub, hshorter⟩
  · exact .inl hhanded
  · refine .inr ⟨hwaits, hsub, fun time => ?_⟩
    have hle := hsub.length_le
    unfold ahead
    rcases hr.insideSince_act ha time with hkept | ⟨hone, hholds, hleft⟩
    · omega
    · have hmoves := hshorter hholds hleft
      omega

end Sound

/-- How far a request has moved up in the line that found `k` others when it came at a millisecond. -/
structure MovesUp (s : Service) (limit k start : Nat) (r : Run) (i : Nat) : Prop where
  /-- At first those without a slot are in front of it. -/
  begins : (r.ahead i).length + s.capacity ≤ k
  /-- When the clock has passed the end of some of the times that begin with its arrival, it has moved up
  by as many places as there are slots in each of them, up to the requests that are inside since. -/
  spans : ∀ n, start + n * limit < r.clock →
    (r.ahead i).length + (n + 2) * s.capacity ≤ k + r.insideSince (start + n * limit)

namespace MovesUp

variable {k start i : Nat}

/-- What is true for the times whose end the clock has passed is also true for those whose end it is
about to pass. -/
lemma spans_of_mayPass (h : MovesUp s limit k start r i) (hr : r.Sound s jobs)
    (hlimit : s.writeTimeout = .ofMillis limit) (hi : i ∈ r.shared.admission.waiting)
    (hpass : r.MayPass now) (n : Nat) (hlt : start + n * limit < now) :
    (r.ahead i).length + (n + 2) * s.capacity ≤ k + r.insideSince (start + n * limit) := by
  have hfree : r.shared.admission.free = 0 := by
    by_contra hfree
    rw [hr.valid.nobody_waits (Nat.pos_of_ne_zero hfree)] at hi
    cases hi
  -- the clock has not moved since everyone inside was admitted
  have hall {m : Nat} (hlt : start + m * limit < now) (hle : r.clock ≤ start + m * limit) :
      r.insideSince (start + m * limit) = s.capacity :=
    hr.insideSince_eq_capacity hlimit hfree (hpass.still (hle.trans_lt hlt)) hle
  induction n with
  | zero =>
    by_cases hpast : start + 0 * limit < r.clock
    · exact h.spans 0 hpast
    · rw [hall hlt (Nat.not_lt.mp hpast)]
      have hbegins := h.begins
      omega
  | succ n ih =>
    by_cases hpast : start + (n + 1) * limit < r.clock
    · exact h.spans (n + 1) hpast
    · have hend : start + n * limit + limit < now := by
        rw [Nat.succ_mul] at hlt
        omega
      have hbefore := ih ((Nat.le_add_right _ limit).trans_lt hend)
      rw [hr.insideSince_eq_zero hlimit hpass hend] at hbefore
      rw [hall hlt (Nat.not_lt.mp hpast), Nat.succ_mul]
      omega

/-- While the request waits, the clock does not pass the end of its wait. -/
lemma le_of_mayPass (h : MovesUp s limit k start r i) (hr : r.Sound s jobs)
    (hlimit : s.writeTimeout = .ofMillis limit) (hcapacity : 0 < s.capacity)
    (hi : i ∈ r.shared.admission.waiting) (hpass : r.MayPass now) :
    now ≤ waitEnd s limit start k := by
  by_contra hlate
  unfold waitEnd at hlate
  have hmoved := h.spans_of_mayPass hr hlimit hi hpass _ (Nat.not_le.mp hlate)
  have hinside := hr.insideSince_le_capacity (start + k / s.capacity * limit)
  have hfew := Nat.lt_mul_div_succ k hcapacity
  rw [Nat.mul_comm] at hfew
  rw [Nat.succ_mul] at hfew
  rw [Nat.add_mul] at hmoved
  omega

/-- The request keeps moving up while others take their turns. -/
lemma act (h : MovesUp s limit k start r i) (hr : r.Sound s jobs)
    (hlimit : s.writeTimeout = .ofMillis limit) (hi : i ∈ r.shared.admission.waiting) {a : Action}
    (ha : r.Allowed a) (hsub : (r.act s a).ahead i <+ r.ahead i)
    (hmoves : ∀ time, r.insideSince time + ((r.act s a).ahead i).length ≤
      (r.act s a).insideSince time + (r.ahead i).length) :
    MovesUp s limit k start (r.act s a) i where
  begins := by
    have hle := hsub.length_le
    have hbegins := h.begins
    omega
  spans n hlt := by
    have hspan := h.spans_of_mayPass hr hlimit hi (hr.mayPass ha) n hlt
    have hmove := hmoves (start + n * limit)
    omega

end MovesUp

/-! ## The wait of a request -/

/-- How a request can stand that has asked for admission at a millisecond and found the others in a
list. -/
inductive Attended (s : Service) (limit start : Nat) (line : List Nat) (r : Run) (i : Nat)
    (t : Task) : Prop
  | waits (hi : i ∈ r.shared.admission.waiting) (hvisit : t.visit = []) (hstart : start ≤ r.clock)
      (hfront : r.ahead i <+ line) (hmoves : MovesUp s limit line.length start r i)
      (hle : r.clock ≤ waitEnd s limit start line.length)
  | handed (hi : i ∈ r.shared.admission.handed) (hvisit : t.visit = []) (hstart : start ≤ r.clock)
      (hle : r.clock ≤ waitEnd s limit start line.length)
  | granted {grant : Nat} (hgrant : t.grantTime? = some grant) (hstart : start ≤ grant)
      (hle : grant ≤ waitEnd s limit start line.length)
  | cancelled {c : Nat} (hphase : t.phase = .ended .cancelled) (hvisit : t.visit = [])
      (hcancel : t.job.cancelAt = some c) (hle : c ≤ waitEnd s limit start line.length)

variable {start i : Nat} {line : List Nat} {a : Action} {t t' : Task}

/-- The clock does not move while a slot is on its way to a request. -/
lemma MayPass.le_of_handed (h : r.MayPass now) (hi : i ∈ r.shared.admission.handed) :
    now ≤ r.clock := by
  by_contra hmoves
  rw [h.still (Nat.not_le.mp hmoves)] at hi
  cases hi

namespace Attended

/-- Turns of others do not end the wait of a request, but for handing it a slot. -/
lemma act_of_ne (h : Attended s limit start line r i t) (hr : r.Sound s jobs)
    (hlimit : s.writeTimeout = .ofMillis limit) (hcapacity : 0 < s.capacity) (ha : r.Allowed a)
    (hne : a.place ≠ i) : Attended s limit start line (r.act s a) i t := by
  have hpass := hr.mayPass ha
  cases h with
  | waits hi hvisit hstart hfront hmoves hle =>
    have hbound := hmoves.le_of_mayPass hr hlimit hcapacity hi hpass
    have hlater := hstart.trans hpass.le
    rcases hr.line_act ha hi hne with hhanded | ⟨hwaits, hsub, hmove⟩
    · exact .handed hhanded hvisit hlater hbound
    · exact .waits hwaits hvisit hlater (hsub.trans hfront) (hmoves.act hr hlimit hi ha hsub hmove)
        hbound
  | handed hi hvisit hstart hle =>
    exact .handed ((hr.touched ha).handed hi hne) hvisit (hstart.trans hpass.le)
      ((hpass.le_of_handed hi).trans hle)
  | granted hgrant hstart hle => exact .granted hgrant hstart hle
  | cancelled hphase hvisit hcancel hle => exact .cancelled hphase hvisit hcancel hle

/-- With a turn of its own a request ends its wait, and in time. -/
lemma act_self (h : Attended s limit start line r a.place t) (hr : r.Sound s jobs)
    (hlimit : s.writeTimeout = .ofMillis limit) (hcapacity : 0 < s.capacity) (ha : r.Allowed a)
    (ht : r.tasks[a.place]? = some t) :
    Attended s limit start line (r.act s a) a.place
      (t.after (r.turn s t a).1 (r.turn s t a).2) := by
  have hpass := hr.mayPass ha
  obtain ⟨htakes, last, -⟩ := hr.takes_of_task ha ht
  rw [act_of_task ht] at hpass ⊢
  cases h with
  | waits hi hvisit hstart hfront hmoves hle =>
    have hbound := hmoves.le_of_mayPass hr hlimit hcapacity hi hpass
    have hphase := hr.queued_of_waits ht (.inr hi)
    rcases htakes.of_queued hphase hvisit with ⟨hhanded, -⟩ | ⟨hcancelled, hunseen, hcancel⟩
    · exact absurd hhanded (hr.valid.not_mem_of_waits hi).2
    · exact .cancelled hcancelled hunseen hcancel hbound
  | handed hi hvisit hstart hle =>
    have hphase := hr.queued_of_waits ht (.inl hi)
    have hbound := (hpass.le_of_handed hi).trans hle
    rcases htakes.of_queued hphase hvisit with ⟨-, hgrant⟩ | ⟨hcancelled, hunseen, hcancel⟩
    · exact .granted hgrant (hstart.trans hpass.le) hbound
    · exact .cancelled hcancelled hunseen hcancel hbound
  | granted hgrant hstart hle =>
    exact .granted (Task.grantTime?_after hgrant _ _) hstart hle
  | cancelled hphase => exact absurd hphase (htakes.not_ended _)

end Attended

/-- A request that asks for admission finds a free slot and is admitted, or joins the line behind all
others. -/
lemma Sound.attended_of_asks (hr : r.Sound s jobs) (ha : r.Allowed a)
    (ht : r.tasks[a.place]? = some t) (ht' : (r.act s a).tasks[a.place]? = some t')
    (hbefore : .requestCounted ∉ t.events) (hafter : .requestCounted ∈ t'.events) :
    Attended s limit (r.act s a).clock r.shared.admission.parties (r.act s a) a.place t' ∧
      (r.shared.admission.parties.length < s.capacity →
        t'.grantTime? = some (r.act s a).clock) := by
  obtain ⟨htakes, last, hcourse⟩ := hr.takes_of_task ha ht
  obtain rfl := Option.some.inj ((tasks_act_self ht).symm.trans ht')
  have hsum := hr.valid.sum
  rw [hr.capacity] at hsum
  have hparties : r.shared.admission.parties.length = r.shared.admission.holders.length +
      r.shared.admission.handed.length + r.shared.admission.waiting.length := by
    simp only [Admission.parties, List.length_append]
  rw [Task.after, Task.events_moved] at hafter
  have hasks := (List.mem_append.mp hafter).resolve_left hbefore
  obtain ⟨hvisit, hout, hneeds, hturn⟩ := htakes.asks hcourse (hr.fits ht) hasks
  rw [act_of_task ht, hturn]
  by_cases hfree : 0 < r.shared.admission.free
  · rw [Stage.arrive_of_free hneeds hout hfree]
    have hgrant := @Task.grantTime?_of_admission s (r.turn s t a).1 a.place
      { r.shared with admission := r.shared.admission.arrive a.place } t
      [.log (.requestStarted t.job.request.target.shown), .requestCounted] hvisit rfl
    exact ⟨.granted hgrant le_rfl (Nat.le_add_right _ _), fun _ => hgrant⟩
  · have hnone : r.shared.admission.free = 0 := Nat.eq_zero_of_not_pos hfree
    have hnot : a.place ∉ r.shared.admission.waiting := by
      intro hmem
      refine Admission.standing_eq_out.mp hout ?_
      exact List.mem_append_right _ hmem
    have hahead := Admission.ahead_arrive_self hnone hnot
    rw [Stage.arrive_of_taken hneeds hout hfree]
    constructor
    · refine .waits ?_ (Task.visit_after_of_quiet hvisit rfl) le_rfl ?_ ?_ (Nat.le_add_right _ _)
      · simp [Admission.arrive, hnone]
      · simp only [ahead, hahead]
        exact List.sublist_append_right _ _
      · constructor
        · simp only [ahead, hahead]
          omega
        · intro n hlate
          simp only at hlate
          omega
    · intro hfew
      omega

/-! ## The end of the wait -/

/-- The states to which some order of actions leads from a state. -/
inductive Leads (s : Service) (r : Run) : Run → Prop
  | here : Leads s r r
  | act {q : Run} {a : Action} (hq : Leads s r q) (ha : q.Allowed a) : Leads s r (q.act s a)

namespace Leads

variable {q : Run}

lemma reachable (h : Leads s r q) (hr : Reachable s jobs r) : Reachable s jobs q := by
  induction h with
  | here => exact hr
  | act _ ha ih => exact ih.act ha

/-- Steps only take actions that may happen. -/
lemma steps {horizon n : Nat} (h : Leads s r q) : Leads s r (Run.steps s horizon n q) := by
  induction n generalizing q with
  | zero => exact h
  | succ n ih =>
    rcases hnext : q.next? horizon with _ | a
    · simpa only [Run.steps, hnext] using h
    · simp only [Run.steps, hnext]
      exact ih (h.act (allowed_of_next? hnext).1)

/-- A run that takes steps goes through the state after the first of them. -/
lemma of_next? {horizon : Nat} (h : r.next? horizon = some a) (n : Nat) :
    Leads s (r.act s a) (Run.steps s horizon (n + 1) r) := by
  simp only [Run.steps, h]
  exact Leads.here.steps

end Leads

/-- A request that has been admitted at a time has been admitted at that time ever after. -/
lemma Leads.grantTime? {q : Run} (h : Leads s r q) {grant : Nat}
    (hgranted : ∃ t, r.tasks[i]? = some t ∧ t.grantTime? = some grant) :
    ∃ u, q.tasks[i]? = some u ∧ u.grantTime? = some grant := by
  induction h with
  | here => exact hgranted
  | @act q a _ _ ih =>
    obtain ⟨u, hu, hgrant⟩ := ih
    by_cases hplace : a.place = i
    · subst hplace
      exact ⟨_, tasks_act_self hu, Task.grantTime?_after hgrant _ _⟩
    · exact ⟨u, (tasks_act_of_ne hplace).trans hu, hgrant⟩

/-- Whatever happens, a request that has asked for admission is attended to. -/
lemma Leads.attended {q : Run} (h : Leads s r q) (hreach : Reachable s jobs r)
    (hlimit : s.writeTimeout = .ofMillis limit) (hcapacity : 0 < s.capacity)
    (hattended : ∃ t, r.tasks[i]? = some t ∧ Attended s limit start line r i t) :
    ∃ u, q.tasks[i]? = some u ∧ Attended s limit start line q i u := by
  induction h with
  | here => exact hattended
  | @act q a hq ha ih =>
    obtain ⟨u, hu, hattended⟩ := ih
    have hsound := (hq.reachable hreach).sound
    by_cases hplace : a.place = i
    · subst hplace
      exact ⟨_, tasks_act_self hu, hattended.act_self hsound hlimit hcapacity ha hu⟩
    · exact ⟨u, (tasks_act_of_ne hplace).trans hu,
        hattended.act_of_ne hsound hlimit hcapacity ha hplace⟩

/-- What a service with a time limit promises to a request that asked for admission at a millisecond and
found the requests in a list holding a slot or waiting for one, at any later point of a run. -/
structure Prompt (s : Service) (limit : Nat) (line : List Nat) (start : Nat) (q : Run) (i : Nat)
    (t : Task) : Prop where
  /-- If it has been admitted, this was before the end of its wait. -/
  granted : ∀ grant, t.grantTime? = some grant →
    start ≤ grant ∧ grant ≤ waitEnd s limit start line.length
  /-- If it has ended without admission, it has been cancelled by then. -/
  cancelled : t.visit = [] → ∀ o, t.outcome? = some o → o = .cancelled ∧
    ∃ c, t.job.cancelAt = some c ∧ c ≤ waitEnd s limit start line.length
  /-- If it still waits, the clock has not passed the end of its wait. -/
  open_until : t.visit = [] → t.hasEnded = false → q.clock ≤ waitEnd s limit start line.length
  /-- When everything that is due by then has happened, it does not wait any more. -/
  settled : ∀ horizon, waitEnd s limit start line.length ≤ horizon → q.StoppedAt horizon →
    (∃ grant, t.grantTime? = some grant) ∨ t.outcome? = some .cancelled
  /-- As long as it is in the line, only those that it has found are in front of it, in their order. -/
  in_order : i ∈ q.shared.admission.waiting → q.ahead i <+ line

/-- A request that is attended to waits no longer than it has to. -/
lemma Attended.prompt (h : Attended s limit start line r i t) (hr : r.Sound s jobs)
    (hlimit : s.writeTimeout = .ofMillis limit) (hcapacity : 0 < s.capacity)
    (ht : r.tasks[i]? = some t) : Prompt s limit line start r i t := by
  have hopen (hphase : t.phase = .queued) {o : Outcome} (ho : t.outcome? = some o) : False := by
    cases hphase.symm.trans (Task.outcome?_eq_some_iff.mp ho)
  have hout (hphase : t.phase ≠ .queued) : i ∉ r.shared.admission.waiting := fun hi =>
    hphase (hr.queued_of_waits ht (.inr hi))
  cases h with
  | waits hi hvisit hstart hfront hmoves hle =>
    have hphase := hr.queued_of_waits ht (.inr hi)
    refine ⟨fun grant hgrant => absurd hvisit (Task.visit_ne_nil hgrant), fun _ o ho => (hopen hphase ho).elim,
      fun _ _ => hle, fun horizon hlate hstopped => ?_, fun _ => hfront⟩
    have hbound := hmoves.le_of_mayPass hr hlimit hcapacity hi hstopped.mayPass
    omega
  | handed hi hvisit hstart hle =>
    have hphase := hr.queued_of_waits ht (.inl hi)
    refine ⟨fun grant hgrant => absurd hvisit (Task.visit_ne_nil hgrant), fun _ o ho => (hopen hphase ho).elim,
      fun _ _ => hle, fun horizon hlate hstopped => ?_, fun hwaits => ?_⟩
    · rw [(next?_eq_none hstopped.2).1] at hi
      cases hi
    · exact absurd hi (hr.valid.not_mem_of_waits hwaits).2
  | @granted grant hgrant hstart hle =>
    have hvisit := Task.visit_ne_nil hgrant
    obtain ⟨last, -, hcourse⟩ := hr.course t (List.mem_of_getElem? ht)
    refine ⟨fun grant' hgrant' => ?_, fun hnone => absurd hnone hvisit,
      fun hnone => absurd hnone hvisit, fun _ _ _ => .inl ⟨grant, hgrant⟩,
      fun hwaits => absurd hwaits (hout (hcourse.ne_of_admitted hvisit).2)⟩
    obtain rfl := Option.some.inj (hgrant.symm.trans hgrant')
    exact ⟨hstart, hle⟩
  | cancelled hphase hvisit hcancel hle =>
    have ho := Task.outcome?_eq_some_iff.mpr hphase
    refine ⟨fun grant hgrant => absurd hvisit (Task.visit_ne_nil hgrant), fun _ o ho' => ?_,
      fun _ hended => ?_, fun _ _ _ => .inr ho, fun hwaits => absurd hwaits (hout ?_)⟩
    · obtain rfl := Option.some.inj (ho.symm.trans ho')
      exact ⟨rfl, _, hcancel, hle⟩
    · simp [Task.hasEnded, hphase] at hended
    · rw [hphase]
      intro hqueued
      cases hqueued

/-- If there is a slot at all, every request that asks for admission is admitted before the end of its
wait, unless it is cancelled before, and at once if it finds fewer requests than there are slots. This is
so whatever the collaborators do, whoever else is cancelled and whoever comes after it. -/
theorem prompt_of_leads {c : Config} (hcapacity : 0 < c.processing.concurrency) {epoch : Nat}
    (hreach : Reachable (.ofConfig c epoch) jobs r) (ha : r.Allowed a)
    (ht : r.tasks[a.place]? = some t)
    (ht' : (r.act (.ofConfig c epoch) a).tasks[a.place]? = some t')
    (hbefore : .requestCounted ∉ t.events) (hafter : .requestCounted ∈ t'.events) {q : Run}
    (hleads : Leads (.ofConfig c epoch) (r.act (.ofConfig c epoch) a) q) {u : Task}
    (hu : q.tasks[a.place]? = some u) :
    Prompt (.ofConfig c epoch) c.budget r.shared.admission.parties
        (r.act (.ofConfig c epoch) a).clock q a.place u ∧
      (r.shared.admission.parties.length < c.processing.concurrency →
        u.grantTime? = some (r.act (.ofConfig c epoch) a).clock) := by
  have hlimit := Service.writeTimeout_ofConfig c epoch
  have hreach' := hreach.act ha
  have hq := (hleads.reachable hreach').sound
  obtain ⟨hasked, hat_once⟩ :=
    @Sound.attended_of_asks _ _ _ c.budget _ _ _ hreach.sound ha ht ht' hbefore hafter
  constructor
  · obtain ⟨u', hu', hattended⟩ := hleads.attended hreach' hlimit hcapacity ⟨t', ht', hasked⟩
    obtain rfl := Option.some.inj (hu.symm.trans hu')
    exact hattended.prompt hq hlimit hcapacity hu
  · intro hfew
    obtain ⟨u', hu', hgrant⟩ := hleads.grantTime? ⟨t', ht', hat_once hfew⟩
    obtain rfl := Option.some.inj (hu.symm.trans hu')
    exact hgrant

/-- The request that comes while the only slot is in use has to wait for ten seconds at most, and it is
admitted when they are nearly over. -/
theorem prompt_of_rivals :
    let s := Service.ofConfig oneSlot 0
    let q := serve s rivals 20000
    ∃ u, q.tasks[1]? = some u ∧ Prompt s oneSlot.budget [0] 1 q 1 u ∧
      waitEnd s oneSlot.budget 1 1 = 10001 ∧ u.grantTime? = some 10000 := by
  -- the state in which the second request arrives
  have hnext : (steps (.ofConfig oneSlot 0) 20000 1 (start (.ofConfig oneSlot 0) rivals)).next? 20000 =
      some (.timer 1 ⟨1, false⟩) := by rfl
  have htask : (steps (.ofConfig oneSlot 0) 20000 1 (start (.ofConfig oneSlot 0) rivals)).tasks[1]? =
      some (.ofJob (imageJob 1 ⟨some 5, .ok [1]⟩)) := by rfl
  have hparties : (steps (.ofConfig oneSlot 0) 20000 1
      (start (.ofConfig oneSlot 0) rivals)).shared.admission.parties = [0] := by rfl
  have hasks : ((steps (.ofConfig oneSlot 0) 20000 1 (start (.ofConfig oneSlot 0) rivals)).act
      (.ofConfig oneSlot 0) (.timer 1 ⟨1, false⟩)).tasks[1]?.map Task.events =
        some [.log (.requestStarted "/plain/a"), .requestCounted] := by rfl
  have hclock : ((steps (.ofConfig oneSlot 0) 20000 1 (start (.ofConfig oneSlot 0) rivals)).act
      (.ofConfig oneSlot 0) (.timer 1 ⟨1, false⟩)).clock = 1 := by rfl
  have hserve : serve (.ofConfig oneSlot 0) rivals 20000 = steps (.ofConfig oneSlot 0) 20000 7
      (steps (.ofConfig oneSlot 0) 20000 1 (start (.ofConfig oneSlot 0) rivals)) :=
    steps_add (.ofConfig oneSlot 0) 20000 1 7 _
  have hgrant : (serve (.ofConfig oneSlot 0) rivals 20000).tasks[1]?.bind Task.grantTime? =
      some 10000 := by decide +kernel
  have hreach : Reachable (.ofConfig oneSlot 0) rivals
      (steps (.ofConfig oneSlot 0) 20000 1 (start (.ofConfig oneSlot 0) rivals)) :=
    Reachable.start.steps
  have hend : waitEnd (.ofConfig oneSlot 0) oneSlot.budget 1 1 = 10001 := by decide
  intro s q
  obtain ⟨t', ht', hevents⟩ := Option.map_eq_some_iff.mp hasks
  obtain ⟨u, hu, hgrant⟩ := Option.bind_eq_some_iff.mp hgrant
  have hleads := Leads.of_next? hnext 6 (s := .ofConfig oneSlot 0)
  rw [← hserve] at hleads
  obtain ⟨hprompt, -⟩ := prompt_of_leads (by decide) hreach (allowed_of_next? hnext).1 htask ht'
    (by simp [Task.events, Task.ofJob]) (by simp [hevents]) hleads hu
  rw [hparties, hclock] at hprompt
  exact ⟨u, hu, hprompt, hend, hgrant⟩

end Run

end Gateway
