import Mathlib
import Gateway.Proofs.Run.Course

/-!
# The states of a run

`Run.serve` takes the actions of one instant in a fixed order. Which of several requests goes first at
an instant is an accident of the scheduler, so the statements about runs are made for every order:
`Run.Allowed` lets any timer that is due fire and any request to which a slot has been handed resume,
and it only forbids that time passes while something can still happen. `Run.Reachable` are the states
that arise in this way, and those of `serve` are among them (`reachable_serve`).

Every action is one turn of one request (`Run.Advance`). This carries the invariant `Run.Sound`: the
slots are accounted for and agree with where each request stops, each request has come there along its
course, and no timer is late. Since a request only has a few turns, a run comes to an end
(`stoppedAt_serve`).
-/

namespace Gateway

namespace Run

/-! ## Actions in any order -/

/-- What may happen next, in whatever order the requests of one instant go. -/
inductive Allowed (r : Run) : Action → Prop
  /-- A timer that is due fires. -/
  | due {i : Nat} {t : Task} {a : Timer} (htask : r.tasks[i]? = some t) (htimer : t.timer? = some a)
      (hdue : a.time ≤ r.clock) : Allowed r (.timer i a)
  /-- If no request has been handed a slot, one of the earliest timers fires. -/
  | idle {i : Nat} {t : Task} {a : Timer} (htask : r.tasks[i]? = some t)
      (htimer : t.timer? = some a) (hhanded : r.shared.admission.handed = [])
      (hfirst : ∀ u ∈ r.tasks, ∀ b, u.timer? = some b → a.time ≤ b.time) :
      Allowed r (.timer i a)
  /-- A request to which a slot has been handed resumes. -/
  | resumes {i : Nat} (hhanded : i ∈ r.shared.admission.handed) : Allowed r (.resume i)

/-- The states to which some order of actions leads. -/
inductive Reachable (s : Service) (jobs : List Job) : Run → Prop
  | start : Reachable s jobs (start s jobs)
  | act {r : Run} {a : Action} (hr : Reachable s jobs r) (ha : r.Allowed a) :
      Reachable s jobs (r.act s a)

/-- Whether a run has come to a millisecond and nothing is left to happen by then. -/
def StoppedAt (r : Run) (horizon : Nat) : Prop :=
  r.clock ≤ horizon ∧ r.next? horizon = none

/-! ## The next action -/

/-- The first of the earliest timers is the timer of a request. -/
lemma exists_of_earliest {ts : List Task} {k i : Nat} {a : Timer}
    (h : earliest k ts = some (i, a)) :
    ∃ j t, i = k + j ∧ ts[j]? = some t ∧ t.timer? = some a := by
  induction ts generalizing k with
  | nil => cases h
  | cons t ts ih =>
    have hrest (hlater : earliest (k + 1) ts = some (i, a)) :
        ∃ j u, i = k + j ∧ (t :: ts)[j]? = some u ∧ u.timer? = some a := by
      obtain ⟨j, u, hi, hu, hb⟩ := ih hlater
      exact ⟨j + 1, u, by omega, hu, hb⟩
    rcases htimer : t.timer? with _ | b
    · simp only [earliest, htimer] at h
      exact hrest h
    · rcases hearliest : earliest (k + 1) ts with _ | ⟨j, c⟩
      · simp only [earliest, htimer, hearliest, Option.some.injEq, Prod.mk.injEq] at h
        obtain ⟨rfl, rfl⟩ := h
        exact ⟨0, t, rfl, rfl, htimer⟩
      · simp only [earliest, htimer, hearliest, Option.some.injEq] at h
        split at h
        · obtain ⟨rfl, rfl⟩ := Prod.mk.inj h
          exact ⟨0, t, rfl, rfl, htimer⟩
        · exact hrest (hearliest.trans (congrArg some h))

/-- There is an earliest timer if there is any, and it is not later than that one. -/
lemma exists_earliest_le {ts : List Task} {k : Nat} {t : Task} {b : Timer} (ht : t ∈ ts)
    (hb : t.timer? = some b) : ∃ i a, earliest k ts = some (i, a) ∧ a.time ≤ b.time := by
  induction ts generalizing k with
  | nil => cases ht
  | cons u ts ih =>
    rcases List.mem_cons.mp ht with rfl | ht
    · rcases hearliest : earliest (k + 1) ts with _ | ⟨j, c⟩
      · exact ⟨k, b, by simp only [earliest, hb, hearliest], le_rfl⟩
      · by_cases hle : b.time ≤ c.time
        · exact ⟨k, b, by simp only [earliest, hb, hearliest, hle, if_true], le_rfl⟩
        · exact ⟨j, c, by simp only [earliest, hb, hearliest, hle, if_false], by omega⟩
    · obtain ⟨j, c, hearliest, hle⟩ := ih (k := k + 1) ht
      rcases htimer : u.timer? with _ | d
      · exact ⟨j, c, by simp only [earliest, htimer, hearliest], hle⟩
      · by_cases hfirst : d.time ≤ c.time
        · exact ⟨k, d, by simp only [earliest, htimer, hearliest, hfirst, if_true], by omega⟩
        · exact ⟨j, c, by simp only [earliest, htimer, hearliest, hfirst, if_false], hle⟩

/-- No timer is earlier than the first of the earliest ones, and those that come before it in the list
are later. -/
lemma time_le_of_earliest {ts : List Task} {k i j : Nat} {u : Task} {a b : Timer}
    (h : earliest k ts = some (i, a)) (hu : ts[j]? = some u) (hb : u.timer? = some b) :
    a.time ≤ b.time ∧ (k + j < i → a.time < b.time) := by
  induction ts generalizing k i j a with
  | nil => cases hu
  | cons t ts ih =>
    cases j with
    | zero =>
      obtain rfl := Option.some.inj hu
      rcases hrest : earliest (k + 1) ts with _ | ⟨i', c⟩
      · simp only [earliest, hb, hrest, Option.some.injEq, Prod.mk.injEq] at h
        obtain ⟨rfl, rfl⟩ := h
        exact ⟨le_rfl, fun hlt => by omega⟩
      · simp only [earliest, hb, hrest, Option.some.injEq] at h
        split at h
        · obtain ⟨rfl, rfl⟩ := Prod.mk.inj h
          exact ⟨le_rfl, fun hlt => by omega⟩
        · obtain ⟨rfl, rfl⟩ := Prod.mk.inj h
          exact ⟨by omega, fun _ => by omega⟩
    | succ j =>
      rw [List.getElem?_cons_succ] at hu
      obtain ⟨i', c, hrest, hle⟩ := exists_earliest_le (k := k + 1) (List.mem_of_getElem? hu) hb
      obtain ⟨-, hlater⟩ := ih hrest hu
      rcases htimer : t.timer? with _ | d
      · simp only [earliest, htimer, hrest, Option.some.injEq, Prod.mk.injEq] at h
        obtain ⟨rfl, rfl⟩ := h
        exact ⟨hle, fun hlt => hlater (by omega)⟩
      · simp only [earliest, htimer, hrest, Option.some.injEq] at h
        split at h
        · obtain ⟨rfl, rfl⟩ := Prod.mk.inj h
          exact ⟨by omega, fun hlt => by omega⟩
        · obtain ⟨rfl, rfl⟩ := Prod.mk.inj h
          exact ⟨hle, fun hlt => hlater (by omega)⟩

variable {s : Service} {jobs : List Job} {r : Run} {horizon : Nat}

/-- What happens next: the first of the earliest timers fires, if it is in time or due; otherwise the
first request to which a slot has been handed resumes. -/
lemma next?_eq_some_iff {a : Action} : r.next? horizon = some a ↔
    (∃ i b, a = .timer i b ∧ earliest 0 r.tasks = some (i, b) ∧
      (r.shared.admission.handed = [] ∧ b.time ≤ horizon ∨
        r.shared.admission.handed ≠ [] ∧ b.time ≤ r.clock)) ∨
    ∃ j js, a = .resume j ∧ r.shared.admission.handed = j :: js ∧
      ∀ t ∈ r.tasks, ∀ b, t.timer? = some b → r.clock < b.time := by
  have hlate {i : Nat} {b : Timer} (hearliest : earliest 0 r.tasks = some (i, b)) :
      (∀ t ∈ r.tasks, ∀ b, t.timer? = some b → r.clock < b.time) ↔ ¬ b.time ≤ r.clock := by
    constructor
    · intro hall
      obtain ⟨j, t, -, htask, htimer⟩ := exists_of_earliest hearliest
      exact Nat.not_le.mpr (hall t (List.mem_of_getElem? htask) b htimer)
    · intro hlt t ht c hc
      obtain ⟨k, hk⟩ := List.mem_iff_getElem?.mp ht
      have hle := (time_le_of_earliest hearliest hk hc).1
      omega
  have hnone (hearliest : earliest 0 r.tasks = none) :
      ∀ t ∈ r.tasks, ∀ b, t.timer? = some b → r.clock < b.time := by
    intro t ht b hb
    obtain ⟨_, _, hsome, -⟩ := exists_earliest_le (k := 0) ht hb
    cases hearliest.symm.trans hsome
  unfold next?
  rcases hearliest : earliest 0 r.tasks with _ | ⟨i, b⟩ <;>
    rcases hhanded : r.shared.admission.handed with _ | ⟨j, js⟩
  · simp
  · simpa [eq_comm (b := a)] using fun _ => hnone hearliest
  · by_cases hle : b.time ≤ horizon <;> simp [hle, eq_comm (b := a)]
  · have hlate := hlate hearliest
    by_cases hle : b.time ≤ r.clock <;> simp [hle, hlate, eq_comm (b := a)]

/-- The action that is picked next may happen, and it does not happen after the end. -/
lemma allowed_of_next? {a : Action} (h : r.next? horizon = some a) :
    r.Allowed a ∧ ∀ i b, a = .timer i b → b.time ≤ max r.clock horizon := by
  rcases next?_eq_some_iff.mp h with ⟨i, b, rfl, hearliest, hdue⟩ | ⟨j, js, rfl, hhanded, -⟩
  · obtain ⟨j, t, hi, htask, htimer⟩ := exists_of_earliest hearliest
    rw [Nat.zero_add] at hi
    rw [← hi] at htask
    rcases hdue with ⟨hhanded, hle⟩ | ⟨-, hle⟩
    · refine ⟨.idle htask htimer hhanded fun u hu c hc => ?_, ?_⟩
      · obtain ⟨k, hk⟩ := List.mem_iff_getElem?.mp hu
        exact (time_le_of_earliest hearliest hk hc).1
      · rintro _ _ ⟨⟩
        exact hle.trans (le_max_right _ _)
    · refine ⟨.due htask htimer hle, ?_⟩
      rintro _ _ ⟨⟩
      exact hle.trans (le_max_left _ _)
  · refine ⟨.resumes (hhanded ▸ List.mem_cons_self), ?_⟩
    rintro _ _ ⟨⟩

/-- When nothing happens any more, no request has been handed a slot, and all timers lie after the
end. -/
lemma next?_eq_none (h : r.next? horizon = none) :
    r.shared.admission.handed = [] ∧
      ∀ t ∈ r.tasks, ∀ a, t.timer? = some a → horizon < a.time := by
  unfold next? at h
  split at h
  · next i b hearliest hhanded =>
    split at h
    · cases h
    · next hlt =>
      refine ⟨hhanded, fun t ht a ha => ?_⟩
      obtain ⟨i', b', hearliest', hle⟩ := exists_earliest_le (k := 0) ht ha
      obtain ⟨-, rfl⟩ := Prod.mk.inj (Option.some.inj (hearliest.symm.trans hearliest'))
      omega
  · cases h
  · cases h
  · next hearliest hhanded =>
    refine ⟨hhanded, fun t ht a ha => ?_⟩
    obtain ⟨i', b', hearliest', -⟩ := exists_earliest_le (k := 0) ht ha
    cases hearliest.symm.trans hearliest'

/-- When nothing is left to happen by a time, the timers of a request lie after it. -/
lemma StoppedAt.late (h : r.StoppedAt horizon) {t : Task} (ht : t ∈ r.tasks) :
    ∀ a, t.timer? = some a → horizon < a.time :=
  (next?_eq_none h.2).2 t ht

/-- When nothing is left to happen by a time, a request has ended if all that it can wait for by then
are calls that end by then. -/
lemma StoppedAt.hasEnded (h : r.StoppedAt horizon) {t : Task} (ht : t ∈ r.tasks)
    (hpending : (∀ o, t.phase ≠ .ended o) → ∃ q, t.phase.pending? = some q ∧ q.tick ≤ horizon) :
    t.hasEnded = true := by
  by_contra hopen
  obtain ⟨q, hq, htick⟩ := hpending fun o ho => hopen (Task.hasEnded_iff.mpr ⟨o, ho⟩)
  obtain ⟨a, ha, htime⟩ :=
    Task.exists_timer?_le (.inl (Task.ownTime?_eq_some_iff.mpr (.inr ⟨q, hq, rfl⟩)))
  have hlater := h.late ht a ha
  omega

/-- When no request has been handed a slot and all timers lie after the end, nothing happens any
more. -/
lemma next?_eq_none_of_late (hhanded : r.shared.admission.handed = [])
    (hlate : ∀ t ∈ r.tasks, ∀ a, t.timer? = some a → horizon < a.time) :
    r.next? horizon = none := by
  rcases hearliest : earliest 0 r.tasks with _ | ⟨i, a⟩
  · simp only [next?, hearliest, hhanded]
  · obtain ⟨j, t, -, htask, htimer⟩ := exists_of_earliest hearliest
    have hlt := hlate t (List.mem_of_getElem? htask) a htimer
    simp only [next?, hearliest, hhanded, if_neg (Nat.not_le.mpr hlt)]

/-! ## The invariant -/

/-- A step of a run: one request takes a turn, at a millisecond that no timer precedes. -/
inductive Advance (s : Service) (r : Run) : Run → Prop
  | turn {i now : Nat} {t : Task} {turn : Turn} (htask : r.tasks[i]? = some t)
      (htakes : t.Takes s now i r.shared turn) (hle : r.clock ≤ now)
      (hfirst : ∀ u ∈ r.tasks, ∀ b, u.timer? = some b → now ≤ b.time) :
      Advance s r ⟨now, turn.shared, r.tasks.set i (t.after now turn)⟩

/-- What is true at every point of a run. -/
structure Sound (s : Service) (jobs : List Job) (r : Run) : Prop where
  jobs : r.tasks.map Task.job = jobs
  valid : r.shared.admission.Valid
  capacity : r.shared.admission.capacity = s.capacity
  /-- A request stands towards the slots as where it stops says, and nobody else knows of them. -/
  standing : ∀ i, r.shared.admission.standing i =
    (r.tasks[i]?.map fun t => t.phase.standing).getD .out
  /-- Each request has come to where it is along its course. -/
  course : ∀ t ∈ r.tasks, ∃ last, last ≤ r.clock ∧ Task.Course s last t
  /-- No timer is late. -/
  punctual : ∀ t ∈ r.tasks, ∀ a, t.timer? = some a → r.clock ≤ a.time

/-- An action changes one request and what it shares with the others. -/
lemma act_of_task {a : Action} {t : Task} (h : r.tasks[a.place]? = some t) :
    r.act s a = ⟨(r.turn s t a).1, (r.turn s t a).2.shared,
      r.tasks.set a.place (t.after (r.turn s t a).1 (r.turn s t a).2)⟩ := by
  unfold act
  rw [h]
  rfl

/-- An action gives a turn to the request that it is about. -/
lemma tasks_act_self {a : Action} {t : Task} (h : r.tasks[a.place]? = some t) :
    (r.act s a).tasks[a.place]? = some (t.after (r.turn s t a).1 (r.turn s t a).2) := by
  rw [act_of_task h]
  exact List.getElem?_set_self (List.getElem?_eq_some_iff.mp h).1

/-- An action leaves the other requests as they are. -/
lemma tasks_act_of_ne {a : Action} {i : Nat} (h : a.place ≠ i) :
    (r.act s a).tasks[i]? = r.tasks[i]? := by
  rcases htask : r.tasks[a.place]? with _ | t
  · unfold act
    rw [htask]
  · rw [act_of_task htask]
    exact List.getElem?_set_ne h

namespace Sound

/-- The requests of a run keep their places. -/
lemma job (hr : r.Sound s jobs) {i : Nat} {t : Task} (htask : r.tasks[i]? = some t) :
    jobs[i]? = some t.job := by
  rw [← hr.jobs, List.getElem?_map, htask]
  rfl

/-- The slots agree with where a request stops. -/
lemma fits (hr : r.Sound s jobs) {i : Nat} {t : Task} (ht : r.tasks[i]? = some t) :
    r.shared.Fits s i t.phase := by
  refine ⟨hr.valid, hr.capacity, ?_⟩
  rw [hr.standing i, ht]
  rfl

/-- A timer that no other precedes makes its request take a turn. -/
lemma takes_timer (hr : r.Sound s jobs) {i : Nat} {t : Task} {a : Timer}
    (htask : r.tasks[i]? = some t) (htimer : t.timer? = some a) :
    (r.turn s t (.timer i a)).1 = a.time ∧
      t.Takes s a.time i r.shared (r.turn s t (.timer i a)).2 := by
  have hle := hr.punctual t (List.mem_of_getElem? htask) a htimer
  obtain ⟨time, cancels⟩ := a
  simp only [turn, max_eq_right hle, true_and]
  cases cancels with
  | false => exact .fires htimer
  | true => exact .cancels htimer

/-- A request to which a slot has been handed takes a turn when it resumes. -/
lemma takes_resume (hr : r.Sound s jobs) {i : Nat} (hhanded : i ∈ r.shared.admission.handed) :
    ∃ t, r.tasks[i]? = some t ∧ t.phase = .queued ∧
      t.Takes s r.clock i r.shared (Stage.resume s t.job i r.clock r.shared) := by
  have hwaits : r.shared.admission.standing i = .waits :=
    Admission.standing_eq_waits.mpr ⟨(hr.valid.not_mem_of_handed hhanded).1, .inl hhanded⟩
  rcases htask : r.tasks[i]? with _ | t
  · have hout := hr.standing i
    rw [htask, hwaits] at hout
    cases hout
  · have hphase := Phase.eq_queued ((hr.fits htask).standing.symm.trans hwaits)
    refine ⟨t, rfl, hphase, .resumes hphase hhanded fun c hc => ?_⟩
    have hcancel : t.cancelTime? = some c :=
      Task.cancelTime?_eq_some_iff.mpr ⟨by simp [hphase], hc⟩
    obtain ⟨a, ha, hle⟩ := Task.exists_timer?_le (.inr hcancel)
    exact (hr.punctual t (List.mem_of_getElem? htask) a ha).trans hle

/-- An action that may happen is a turn of the request that it is about, and no timer precedes it. -/
lemma takes (hr : r.Sound s jobs) {a : Action} (ha : r.Allowed a) :
    ∃ t, r.tasks[a.place]? = some t ∧ r.clock ≤ (r.turn s t a).1 ∧
      (∀ u ∈ r.tasks, ∀ b, u.timer? = some b → (r.turn s t a).1 ≤ b.time) ∧
      t.Takes s (r.turn s t a).1 a.place r.shared (r.turn s t a).2 := by
  cases ha with
  | @due i t a htask htimer hdue =>
    obtain ⟨hnow, htakes⟩ := hr.takes_timer htask htimer
    rw [← hnow] at htakes
    refine ⟨t, htask, ?_, fun u hu b hb => ?_, htakes⟩
    · exact hnow ▸ hr.punctual t (List.mem_of_getElem? htask) a htimer
    · exact hnow ▸ hdue.trans (hr.punctual u hu b hb)
  | @idle i t a htask htimer hhanded hfirst =>
    obtain ⟨hnow, htakes⟩ := hr.takes_timer htask htimer
    rw [← hnow] at htakes hfirst
    exact ⟨t, htask, hnow ▸ hr.punctual t (List.mem_of_getElem? htask) a htimer, hfirst, htakes⟩
  | resumes hhanded =>
    obtain ⟨t, htask, -, htakes⟩ := hr.takes_resume hhanded
    exact ⟨t, htask, le_rfl, hr.punctual, htakes⟩

/-- A request that an action is about takes its turn, on its course. -/
lemma takes_of_task (hr : r.Sound s jobs) {a : Action} (ha : r.Allowed a) {t : Task}
    (ht : r.tasks[a.place]? = some t) :
    t.Takes s (r.turn s t a).1 a.place r.shared (r.turn s t a).2 ∧ ∃ last, Task.Course s last t := by
  obtain ⟨u, hu, -, -, htakes⟩ := hr.takes ha
  obtain rfl := Option.some.inj (ht.symm.trans hu)
  obtain ⟨last, -, hcourse⟩ := hr.course t (List.mem_of_getElem? ht)
  exact ⟨htakes, last, hcourse⟩

/-- An action that may happen is a step. -/
lemma advance (hr : r.Sound s jobs) {a : Action} (ha : r.Allowed a) : r.Advance s (r.act s a) := by
  obtain ⟨t, htask, hle, hfirst, htakes⟩ := hr.takes ha
  rw [act_of_task htask]
  exact .turn htask htakes hle hfirst

/-- The invariant holds at first. -/
lemma start (s : Service) (jobs : List Job) : (start s jobs).Sound s jobs where
  jobs := by
    rw [Run.start, List.map_map]
    exact List.map_id jobs
  valid := Admission.valid_new s.capacity
  capacity := rfl
  standing i := by
    simp only [Run.start, Admission.standing_new, List.getElem?_map]
    rcases jobs[i]? with _ | job <;> rfl
  course t ht := by
    obtain ⟨job, -, rfl⟩ := List.mem_map.mp ht
    exact ⟨0, le_rfl, .expected job⟩
  punctual _ _ _ _ := Nat.zero_le _

/-- The invariant is kept by every step. -/
lemma step (hr : r.Sound s jobs) {r' : Run} (h : r.Advance s r') : r'.Sound s jobs := by
  obtain @⟨i, now, t, turn, htask, htakes, hle, hfirst⟩ := h
  have hlt : i < r.tasks.length := (List.getElem?_eq_some_iff.mp htask).1
  obtain ⟨last, hlast, hcourse⟩ := hr.course t (List.mem_of_getElem? htask)
  have hnext : Task.Course s now (t.after now turn) :=
    hcourse.turn (hlast.trans hle) (hr.fits htask) htakes
  obtain ⟨-, hsettles⟩ := htakes.move (hr.fits htask) fun q hq => hcourse.awaits hq
  -- the request that has moved fits the slots again, and all others stand as before
  constructor
  · rw [List.map_set, ← hr.jobs]
    have hjob : (r.tasks.map Task.job)[i]? = some t.job := by
      rw [List.getElem?_map, htask]
      rfl
    obtain ⟨hlt, hget⟩ := List.getElem?_eq_some_iff.mp hjob
    have hset := List.set_getElem_self hlt
    rwa [hget] at hset
  · exact hsettles.fits.valid
  · exact hsettles.fits.capacity
  · intro j
    by_cases hj : j = i
    · subst hj
      simpa [hlt] using hsettles.fits.standing
    · rw [hsettles.others j hj, hr.standing j, List.getElem?_set_ne (Ne.symm hj)]
  · intro u hu
    rcases List.mem_or_eq_of_mem_set hu with hu | rfl
    · obtain ⟨last, hlast, hcourse⟩ := hr.course u hu
      exact ⟨last, hlast.trans hle, hcourse⟩
    · exact ⟨now, le_rfl, hnext⟩
  · intro u hu a ha
    rcases List.mem_or_eq_of_mem_set hu with hu | rfl
    · exact hfirst u hu a ha
    · exact hnext.punctual ha

end Sound

/-- The invariant holds at every point of a run. -/
lemma Reachable.sound (h : Reachable s jobs r) : r.Sound s jobs := by
  induction h with
  | start => exact .start s jobs
  | act hr ha ih => exact ih.step (ih.advance ha)

/-! ## The end of a run -/

/-- The number of turns that the requests can still take together. -/
def turnsLeft (r : Run) : Nat := (r.tasks.map fun t => t.phase.turnsLeft).sum

/-- A sum decreases when one of its terms does. -/
lemma sum_map_set_lt {α : Type} {f : α → Nat} {l : List α} {i : Nat} {a b : α}
    (ha : l[i]? = some a) (hlt : f b < f a) : ((l.set i b).map f).sum < (l.map f).sum := by
  induction l generalizing i with
  | nil => cases ha
  | cons c l ih =>
    cases i with
    | zero =>
      obtain rfl := Option.some.inj ha
      simpa using hlt
    | succ i => simpa using ih ha

/-- With every step fewer turns are left. -/
lemma Sound.turnsLeft_lt (hr : r.Sound s jobs) {r' : Run} (h : r.Advance s r') :
    r'.turnsLeft < r.turnsLeft := by
  obtain @⟨i, now, t, turn, htask, htakes, -, -⟩ := h
  obtain ⟨last, -, hcourse⟩ := hr.course t (List.mem_of_getElem? htask)
  obtain ⟨hmove, -⟩ := htakes.move (hr.fits htask) fun q hq => hcourse.awaits hq
  exact sum_map_set_lt htask hmove.turnsLeft_lt

/-- A run that has enough steps ends where nothing happens any more. -/
lemma Sound.next?_steps {n : Nat} (hr : r.Sound s jobs) (hn : r.turnsLeft ≤ n) :
    (steps s horizon n r).next? horizon = none := by
  induction n generalizing r with
  | zero =>
    rcases hnext : r.next? horizon with _ | a
    · exact hnext
    · have hless := hr.turnsLeft_lt (hr.advance (allowed_of_next? hnext).1)
      omega
  | succ n ih =>
    rcases hnext : r.next? horizon with _ | a
    · simp only [steps, hnext]
    · have hadvance := hr.advance (allowed_of_next? hnext).1
      have hless := hr.turnsLeft_lt hadvance
      simp only [steps, hnext]
      exact ih (hr.step hadvance) (by omega)

/-- Steps only take actions that may happen. -/
lemma Reachable.steps {n : Nat} (hr : Reachable s jobs r) :
    Reachable s jobs (steps s horizon n r) := by
  induction n generalizing r with
  | zero => exact hr
  | succ n ih =>
    rcases hnext : r.next? horizon with _ | a
    · simpa only [Run.steps, hnext] using hr
    · simp only [Run.steps, hnext]
      exact ih (hr.act (allowed_of_next? hnext).1)

/-- An action does not move the clock past a limit that its timer does not pass. -/
lemma clock_act_le {a : Action} {limit : Nat} (hclock : r.clock ≤ limit)
    (htime : ∀ i b, a = .timer i b → b.time ≤ limit) : (r.act s a).clock ≤ limit := by
  rcases htask : r.tasks[a.place]? with _ | t
  · unfold act
    rw [htask]
    exact hclock
  · rw [act_of_task htask]
    cases a with
    | timer i b => exact max_le hclock (htime i b rfl)
    | resume i => exact hclock

/-- Steps do not go past the end. -/
lemma clock_steps_le {n : Nat} (hclock : r.clock ≤ horizon) :
    (Run.steps s horizon n r).clock ≤ horizon := by
  induction n generalizing r with
  | zero => exact hclock
  | succ n ih =>
    rcases hnext : r.next? horizon with _ | a
    · simpa only [Run.steps, hnext] using hclock
    · obtain ⟨hallowed, htime⟩ := allowed_of_next? hnext
      simp only [Run.steps, hnext]
      refine ih (clock_act_le hclock fun i b hb => ?_)
      exact (htime i b hb).trans (max_le hclock le_rfl)

/-- A stopped run stays as it is. -/
lemma steps_eq_self (h : r.next? horizon = none) (n : Nat) : Run.steps s horizon n r = r := by
  cases n with
  | zero => rfl
  | succ n => simp only [Run.steps, h]

/-- Steps after steps. -/
lemma steps_add (s : Service) (horizon m n : Nat) (r : Run) :
    Run.steps s horizon (m + n) r = Run.steps s horizon n (Run.steps s horizon m r) := by
  induction m generalizing r with
  | zero => rw [Nat.zero_add, Run.steps]
  | succ m ih =>
    rw [Nat.succ_add]
    rcases hnext : r.next? horizon with _ | a
    · simp only [Run.steps, hnext, steps_eq_self hnext]
    · simp only [Run.steps, hnext, ih]

/-- One more step takes the next action. -/
lemma steps_succ {n : Nat} {a : Action} (h : (Run.steps s horizon n r).next? horizon = some a) :
    Run.steps s horizon (n + 1) r = (Run.steps s horizon n r).act s a := by
  rw [steps_add]
  simp only [Run.steps, h]

/-- Serving a list of requests is a run. -/
theorem reachable_serve (s : Service) (jobs : List Job) (horizon : Nat) :
    Reachable s jobs (serve s jobs horizon) :=
  Reachable.start.steps

/-- Serving only ends when nothing is left to happen. -/
theorem stoppedAt_serve (s : Service) (jobs : List Job) (horizon : Nat) :
    (serve s jobs horizon).StoppedAt horizon := by
  have hturns : (Run.start s jobs).turnsLeft ≤ turnsPerRequest * jobs.length := by
    simp [turnsLeft, Run.start, Task.ofJob, Phase.turnsLeft, turnsPerRequest, Function.comp_def,
      Nat.mul_comm]
  exact ⟨clock_steps_le (Nat.zero_le _), (Sound.start s jobs).next?_steps hturns⟩

/-- Serving ends wherever the steps stop. -/
lemma serve_eq_steps {n : Nat}
    (h : (Run.steps s horizon n (Run.start s jobs)).next? horizon = none) :
    serve s jobs horizon = Run.steps s horizon n (Run.start s jobs) :=
  calc serve s jobs horizon
    _ = Run.steps s horizon n (serve s jobs horizon) :=
      (steps_eq_self (stoppedAt_serve s jobs horizon).2 n).symm
    _ = Run.steps s horizon (n + turnsPerRequest * jobs.length) (Run.start s jobs) := by
      rw [Nat.add_comm, steps_add, serve]
    _ = Run.steps s horizon n (Run.start s jobs) := by rw [steps_add, steps_eq_self h]

/-! ## A small run -/

/-- A configuration with one slot. -/
def oneSlot : Config := { Config.standard 1 with processing := ⟨1⟩ }

/-- A request for an image that is not cancelled, with the way its download goes. -/
def imageJob (arrival : Nat) (download : Call Bytes) : Job where
  request := ⟨.get, .resource "/plain/a", []⟩
  collaborators := ⟨fun _ => .ok ⟨.standard, "http://a/"⟩, download, Collaborators.passthrough, true⟩
  arrival := arrival
  cancelAt := none

/-- A request whose download never answers, and one that comes while the first has the only slot. -/
def rivals : List Job := [imageJob 0 ⟨none, .ok []⟩, imageJob 1 ⟨some 5, .ok [1]⟩]

end Run

end Gateway
