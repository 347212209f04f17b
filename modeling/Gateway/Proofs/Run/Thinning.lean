import Mathlib
import Gateway.Proofs.Run.Arrival
import Gateway.Proofs.Stage.Renaming

/-!
# Runs with and without requests that are answered at once

Take a run and leave out some of the requests that are answered without admission. The others keep
their order but not their places; `f` tells which place in the longer list a place in the shorter one
stands for. Nothing happens differently to a request that both runs serve, and the slots go through
the same states under other names (`Run.Agrees`).

The proof compares the two runs step by step (`Run.Follows`). When a request that has been left out
takes its turn, the shorter run stands still: such a turn does not touch what is shared. All other
turns are taken by both, at the same time. Only the clocks need care. The one of the shorter run can
lag behind while no slot has been handed over, for then nothing happens before the next timer, whatever
the clock says.
-/

namespace Gateway

/-- The same action of a request with another place. -/
def Action.rename (f : Nat → Nat) : Action → Action
  | .timer i a => .timer (f i) a
  | .resume i => .resume (f i)

@[simp] lemma Action.place_rename (f : Nat → Nat) (a : Action) :
    (a.rename f).place = f a.place := by
  cases a <;> rfl

lemma Action.exists_rename {f : Nat → Nat} {a : Action} (h : a.place ∈ Set.range f) :
    ∃ b : Action, a = b.rename f := by
  obtain ⟨i, hi⟩ := h
  cases a with
  | timer j b => exact ⟨.timer i b, congrArg (Action.timer · b) hi.symm⟩
  | resume j => exact ⟨.resume i, congrArg Action.resume hi.symm⟩

/-- A list of jobs without some of those that are answered without admission. -/
structure Thins (s : Service) (f : Nat ↪o Nat) (jobs jobs' : List Job) : Prop where
  kept : ∀ i, jobs'[i]? = jobs[f i]?
  spared : ∀ j job, jobs[j]? = some job → j ∉ Set.range f →
    ∃ entries resp, Stage.Shortcut s job.request entries resp

namespace Run

/-- The second run has come to the same point as the first one: every request that it serves stands
where it does in the first one and has the same trace, and the slots are the same. -/
structure Agrees (f : Nat → Nat) (r r' : Run) : Prop where
  tasks : ∀ i, r'.tasks[i]? = r.tasks[f i]?
  admission : r.shared.admission = r'.shared.admission.rename f

/-- The second run agrees with the first one, and its clock is late at most while time may pass. -/
structure Follows (f : Nat → Nat) (r r' : Run) : Prop extends Agrees f r r' where
  clock : r'.clock ≤ r.clock
  busy : r'.shared.admission.handed ≠ [] → r'.clock = r.clock

variable {s : Service} {jobs jobs' : List Job} {f : Nat ↪o Nat} {r r' : Run} {a : Action}
  {horizon : Nat}

namespace Agrees

lemma mem (h : Agrees f r r') {t : Task} (ht : t ∈ r'.tasks) : t ∈ r.tasks := by
  obtain ⟨i, hi⟩ := List.mem_iff_getElem?.mp ht
  rw [h.tasks] at hi
  exact List.mem_of_getElem? hi

lemma handed (h : Agrees f r r') :
    r.shared.admission.handed = r'.shared.admission.handed.map f := by
  rw [h.admission]
  rfl

lemma handed_eq_nil_iff (h : Agrees f r r') :
    r.shared.admission.handed = [] ↔ r'.shared.admission.handed = [] := by
  rw [h.handed, List.map_eq_nil_iff]

/-- When nothing is left to happen in the first run, nothing is left in the second. -/
lemma stops (h : Agrees f r r') (hnone : r.next? horizon = none) : r'.next? horizon = none := by
  obtain ⟨hhanded, hlate⟩ := next?_eq_none hnone
  exact next?_eq_none_of_late (h.handed_eq_nil_iff.mp hhanded) fun t ht => hlate t (h.mem ht)

end Agrees

/-! ## Steps -/

/-- A turn of a request that both runs serve is the same turn in both. -/
lemma Sound.turn_mirrors (hr : r.Sound s jobs) {i : Nat} {t : Task}
    (htask : r.tasks[f i]? = some t) {shared' : Shared}
    (hadmission : r.shared.admission = shared'.admission.rename f) (now : Nat) :
    (Stage.fire s t.job (f i) now r.shared t.phase).Mirrors f
      (Stage.fire s t.job i now shared' t.phase) := by
  obtain ⟨last, -, hcourse⟩ := hr.course t (List.mem_of_getElem? htask)
  rcases hq : t.phase.pending? with _ | q
  · rcases hphase : t.phase with _ | _ | _ | _ | o
    · exact Stage.arrive_mirrors f.injective hadmission i now
    · exact ⟨rfl, rfl, hadmission⟩
    · rw [hphase] at hq
      cases hq
    · rw [hphase] at hq
      cases hq
    · exact ⟨rfl, rfl, hadmission⟩
  · exact Stage.fire_mirrors f.injective hadmission hq
      (fun hdownload source hok => (hcourse.awaits hq).source hdownload hok) i now

namespace Follows

/-- When a request that is left out takes its turn, the second run stands still. -/
lemma skip (h : Follows f r r') (hr : r.Sound s jobs) (hthin : Thins s f jobs jobs')
    (ha : r.Allowed a) (hplace : a.place ∉ Set.range f) : Follows f (r.act s a) r' := by
  obtain ⟨t, htask, hle, -, htakes⟩ := hr.takes ha
  obtain ⟨entries, resp, hshort⟩ := hthin.spared _ _ (hr.job htask) hplace
  have hbrief := hr.brief (List.mem_of_getElem? htask) hshort
  have hshared := hbrief.takes_shared htakes hshort
  rw [act_of_task htask, hshared]
  refine ⟨⟨fun i => ?_, h.admission⟩, h.clock.trans hle, fun hbusy => ?_⟩
  · have hne : a.place ≠ f i := fun heq => hplace ⟨i, heq.symm⟩
    rw [List.getElem?_set_ne hne, h.tasks]
  · -- no time passes, since a slot has been handed over
    have hhanded := mt h.handed_eq_nil_iff.mp hbusy
    rw [h.busy hbusy]
    cases ha with
    | due _ _ hdue => exact (max_eq_left hdue).symm
    | idle _ _ hnone => exact absurd hnone hhanded
    | resumes => rfl

/-- What may happen to a request in the first run may happen to it in the second. -/
lemma allowed (h : Follows f r r') (hr : r.Sound s jobs) (ha : r.Allowed (a.rename f)) :
    r'.Allowed a := by
  cases a with
  | timer i b =>
    have hidle {t : Task} (htask : r.tasks[f i]? = some t) (htimer : t.timer? = some b)
        (hhanded : r.shared.admission.handed = [])
        (hfirst : ∀ u ∈ r.tasks, ∀ c, u.timer? = some c → b.time ≤ c.time) :
        r'.Allowed (.timer i b) := by
      refine .idle ((h.tasks i).trans htask) htimer (h.handed_eq_nil_iff.mp hhanded) ?_
      exact fun u hu => hfirst u (h.mem hu)
    cases ha with
    | due htask htimer hdue =>
      by_cases hhanded : r.shared.admission.handed = []
      · exact hidle htask htimer hhanded fun u hu c hc => hdue.trans (hr.punctual u hu c hc)
      · have hclock := h.busy (mt h.handed_eq_nil_iff.mpr hhanded)
        exact .due ((h.tasks i).trans htask) htimer (hclock ▸ hdue)
    | idle htask htimer hhanded hfirst => exact hidle htask htimer hhanded hfirst
  | resume i =>
    cases ha with
    | resumes hhanded =>
      rw [h.handed] at hhanded
      exact .resumes ((List.mem_map_of_injective f.injective).mp hhanded)

/-- An action of a request that both runs serve is the same turn in both, at the same time. -/
lemma turn (h : Follows f r r') (hr : r.Sound s jobs) (hr' : r'.Sound s jobs') {t : Task}
    (htask : r.tasks[f a.place]? = some t) (ha : r'.Allowed a) :
    (r'.turn s t a).1 = (r.turn s t (a.rename f)).1 ∧
      (r.turn s t (a.rename f)).2.Mirrors f (r'.turn s t a).2 := by
  have htask' : r'.tasks[a.place]? = some t := (h.tasks _).trans htask
  cases a with
  | timer i b =>
    have htimer : t.timer? = some b := by
      cases ha with
      | due hother htimer _ | idle hother htimer _ _ =>
        obtain rfl := Option.some.inj (htask'.symm.trans hother)
        exact htimer
    have hnow : max r.clock b.time = b.time := (hr.takes_timer htask htimer).1
    have hnow' : max r'.clock b.time = b.time := (hr'.takes_timer htask' htimer).1
    refine ⟨hnow'.trans hnow.symm, ?_⟩
    simp only [Action.rename, Run.turn, hnow, hnow']
    split
    · exact Stage.cancel_mirrors f.injective h.admission i t.phase
    · exact hr.turn_mirrors htask h.admission b.time
  | resume i =>
    cases ha with
    | resumes hhanded =>
      have hclock := h.busy (List.ne_nil_of_mem hhanded)
      refine ⟨hclock, ?_⟩
      simp only [Action.rename, Run.turn, hclock]
      exact Stage.resume_mirrors f.injective h.admission i r.clock

/-- What happens to a request that both runs serve happens to it in both at the same time. -/
lemma keep (h : Follows f r r') (hr : r.Sound s jobs) (hr' : r'.Sound s jobs')
    (ha : r.Allowed (a.rename f)) (ha' : r'.Allowed a) :
    Follows f (r.act s (a.rename f)) (r'.act s a) ∧
      (r'.act s a).clock = (r.act s (a.rename f)).clock := by
  obtain ⟨t, hplace, -⟩ := hr.takes ha
  have htask : r.tasks[f a.place]? = some t := by rwa [Action.place_rename] at hplace
  have htask' : r'.tasks[a.place]? = some t := (h.tasks _).trans htask
  obtain ⟨htime, hmirrors⟩ := h.turn hr hr' htask ha'
  rw [act_of_task hplace, act_of_task htask', htime, Action.place_rename]
  refine ⟨⟨⟨fun i => ?_, hmirrors.admission⟩, le_rfl, fun _ => rfl⟩, rfl⟩
  by_cases hi : a.place = i
  · subst hi
    have hlt := (List.getElem?_eq_some_iff.mp htask).1
    have hlt' := (List.getElem?_eq_some_iff.mp htask').1
    simp only [List.getElem?_set_self hlt, List.getElem?_set_self hlt', Task.after,
      hmirrors.events, hmirrors.phase]
  · have hne : f a.place ≠ f i := fun heq => hi (f.injective heq)
    simp only [List.getElem?_set_ne hi, List.getElem?_set_ne hne, h.tasks]

/-- At first the two runs agree. -/
lemma start (hthin : Thins s f jobs jobs') : Follows f (start s jobs) (start s jobs') where
  tasks i := by simp only [Run.start, List.getElem?_map, hthin.kept]
  admission := (Admission.rename_new f s.capacity).symm
  clock := le_rfl
  busy _ := rfl

/-- What may happen to a request in the second run may happen to it in the first, once no timer of the
first is earlier. -/
lemma allowed_of_first (h : Follows f r r') (ha : r'.Allowed a)
    (hfirst : ∀ i b, a = .timer i b → ∀ u ∈ r.tasks, ∀ c, u.timer? = some c → b.time ≤ c.time) :
    r.Allowed (a.rename f) := by
  cases ha with
  | due htask htimer hdue => exact .due ((h.tasks _).symm.trans htask) htimer (hdue.trans h.clock)
  | idle htask htimer hhanded =>
    exact .idle ((h.tasks _).symm.trans htask) htimer (h.handed_eq_nil_iff.mpr hhanded)
      (hfirst _ _ rfl)
  | resumes hhanded => exact .resumes (h.handed ▸ List.mem_map_of_mem hhanded)

/-- The first run can go on by itself until no timer is left before a time that no timer of the second
run precedes: all that happens by then happens to requests that are left out. -/
lemma catchUp (hthin : Thins s f jobs jobs') (hreach : Reachable s jobs r) (h : Follows f r r')
    {limit : Nat} (hkept : ∀ u ∈ r'.tasks, ∀ b, u.timer? = some b → limit ≤ b.time)
    (hbusy : r'.shared.admission.handed ≠ [] → limit ≤ r.clock) :
    ∃ q, Reachable s jobs q ∧ Follows f q r' ∧ (q.clock = r.clock ∨ q.clock < limit) ∧
      ∀ u ∈ q.tasks, ∀ b, u.timer? = some b → limit ≤ b.time := by
  induction hn : r.turnsLeft using Nat.strong_induction_on generalizing r with
  | _ n ih =>
    have hr := hreach.sound
    by_cases hdone : ∀ u ∈ r.tasks, ∀ b, u.timer? = some b → limit ≤ b.time
    · exact ⟨r, hreach, h, .inl rfl, hdone⟩
    · -- the earliest timer fires, which belongs to a request that is left out
      push Not at hdone
      obtain ⟨u, hu, b, hb, hlt⟩ := hdone
      obtain ⟨i, a, hearliest, hle⟩ := exists_earliest_le (k := 0) hu hb
      obtain ⟨j, t, hi, htask, htimer⟩ := exists_of_earliest hearliest
      rw [Nat.zero_add] at hi
      rw [← hi] at htask
      have hhanded : r.shared.admission.handed = [] := by
        by_contra hhanded
        have hdue := hbusy (mt h.handed_eq_nil_iff.mpr hhanded)
        have hpunctual := hr.punctual u hu b hb
        omega
      have hallowed : r.Allowed (.timer i a) := by
        refine .idle htask htimer hhanded fun w hw c hc => ?_
        obtain ⟨k, hk⟩ := List.mem_iff_getElem?.mp hw
        exact (time_le_of_earliest hearliest hk hc).1
      have hplace : (Action.timer i a).place ∉ Set.range f := by
        rintro ⟨k, hk⟩
        have hsecond : r'.tasks[k]? = some t := by
          rw [h.tasks, hk]
          exact htask
        have hlater := hkept t (List.mem_of_getElem? hsecond) a htimer
        omega
      have hclock : (r.act s (.timer i a)).clock = a.time := by
        rw [act_of_task (a := .timer i a) htask]
        exact (hr.takes_timer htask htimer).1
      have hless := hr.turnsLeft_lt (hr.advance hallowed)
      obtain ⟨q, hq, hfollows, hpast, hlate⟩ :=
        ih _ (hn ▸ hless) (hreach.act hallowed) (h.skip hr hthin hallowed hplace)
          (fun hnone => absurd (h.handed_eq_nil_iff.mp hhanded) hnone) rfl
      refine ⟨q, hq, hfollows, .inr ?_, hlate⟩
      rcases hpast with hsame | hpast
      · rw [hsame, hclock]
        omega
      · exact hpast

end Follows

/-! ## Whole runs -/

/-- What happens in a run also happens without the requests that are left out. -/
lemma Reachable.thin (hthin : Thins s f jobs jobs') (h : Reachable s jobs r) :
    ∃ r', Reachable s jobs' r' ∧ Follows f r r' := by
  induction h with
  | start => exact ⟨_, .start, .start hthin⟩
  | @act r a hreach ha ih =>
    obtain ⟨r', hreach', hfollows⟩ := ih
    by_cases hplace : a.place ∈ Set.range f
    · obtain ⟨b, rfl⟩ := Action.exists_rename hplace
      have hb := hfollows.allowed hreach.sound ha
      exact ⟨_, hreach'.act hb, (hfollows.keep hreach.sound hreach'.sound ha hb).1⟩
    · exact ⟨r', hreach', hfollows.skip hreach.sound hthin ha hplace⟩

/-- What happens in a run also happens among more requests that are answered at once. -/
lemma Reachable.thicken (hthin : Thins s f jobs jobs') (h : Reachable s jobs' r') :
    ∃ r, Reachable s jobs r ∧ Follows f r r' ∧ r'.clock = r.clock := by
  induction h with
  | start => exact ⟨_, .start, .start hthin, rfl⟩
  | @act r' a hreach' ha ih =>
    obtain ⟨r, hreach, hfollows, hclock⟩ := ih
    obtain ⟨t, htask, hle, hfirst, -⟩ := hreach'.sound.takes ha
    have hbusy : r'.shared.admission.handed ≠ [] → (r'.turn s t a).1 ≤ r.clock := by
      intro hbusy
      rw [← hclock]
      cases ha with
      | due _ _ hdue => exact max_le le_rfl hdue
      | idle _ _ hnone => exact absurd hnone hbusy
      | resumes => exact le_rfl
    obtain ⟨q, hq, hcaught, -, hlate⟩ := hfollows.catchUp hthin hreach hfirst hbusy
    have hallowed : q.Allowed (a.rename f) := by
      refine hcaught.allowed_of_first ha ?_
      rintro i b rfl u hu c hc
      exact (le_max_right _ _).trans (hlate u hu c hc)
    obtain ⟨hkeep, htime⟩ := hcaught.keep hq.sound hreach'.sound hallowed ha
    exact ⟨_, hq.act hallowed, hkeep, htime⟩

/-- A run that has stopped has a counterpart without the requests that are left out. -/
theorem exists_thinned (hthin : Thins s f jobs jobs') (h : Reachable s jobs r)
    (hstopped : r.StoppedAt horizon) :
    ∃ r', Reachable s jobs' r' ∧ r'.StoppedAt horizon ∧ Agrees f r r' := by
  obtain ⟨r', hreach', hfollows⟩ := h.thin hthin
  exact ⟨r', hreach', ⟨hfollows.clock.trans hstopped.1, hfollows.stops hstopped.2⟩,
    hfollows.toAgrees⟩

/-- A run that has stopped has a counterpart among more requests that are answered at once. -/
theorem exists_thickened (hthin : Thins s f jobs jobs') (h : Reachable s jobs' r')
    (hstopped : r'.StoppedAt horizon) :
    ∃ r, Reachable s jobs r ∧ r.StoppedAt horizon ∧ Agrees f r r' := by
  obtain ⟨r, hreach, hfollows, hclock⟩ := h.thicken hthin
  obtain ⟨hhanded, hlate⟩ := next?_eq_none hstopped.2
  have hkept : ∀ t ∈ r'.tasks, ∀ a, t.timer? = some a → horizon + 1 ≤ a.time := hlate
  obtain ⟨q, hq, hcaught, hpast, hlate⟩ := hfollows.catchUp hthin hreach hkept (absurd hhanded)
  refine ⟨q, hq, ⟨?_, ?_⟩, hcaught.toAgrees⟩
  · have hle := hstopped.1
    omega
  · exact next?_eq_none_of_late (hcaught.handed_eq_nil_iff.mpr hhanded) hlate

/-! ## Serving -/

/-- The first of the earliest timers of the first run is that of the second run if it belongs to a
request of the second run, because the requests keep their order. -/
lemma Agrees.earliest (h : Agrees f r r') {i : Nat} {b : Timer}
    (hearliest : earliest 0 r.tasks = some (f i, b)) : Run.earliest 0 r'.tasks = some (i, b) := by
  obtain ⟨j, t, hj, htask, htimer⟩ := exists_of_earliest hearliest
  rw [Nat.zero_add] at hj
  rw [← hj, ← h.tasks] at htask
  obtain ⟨i', b', hsecond, hle⟩ := exists_earliest_le (k := 0) (List.mem_of_getElem? htask) htimer
  obtain ⟨j', t', hj', htask', htimer'⟩ := exists_of_earliest hsecond
  rw [Nat.zero_add] at hj'
  obtain rfl := hj'
  obtain ⟨hge, hlater⟩ :=
    time_le_of_earliest hearliest ((h.tasks _).symm.trans htask') htimer'
  obtain ⟨-, hearlier⟩ := time_le_of_earliest hsecond htask htimer
  -- the two times are the same, so neither of the two places comes before the other
  obtain rfl : i' = i := by
    rcases lt_trichotomy i' i with hlt | heq | hgt
    · have hfirst := hlater (by rw [Nat.zero_add]; exact f.strictMono hlt)
      omega
    · exact heq
    · have hfirst := hearlier (by omega)
      omega
  obtain rfl := Option.some.inj (htask.symm.trans htask')
  obtain rfl := Option.some.inj (htimer.symm.trans htimer')
  exact hsecond

/-- If the next action of the first run is about a request of the second, it is the next there. -/
lemma Follows.next? (h : Follows f r r') (hnext : r.next? horizon = some (a.rename f)) :
    r'.next? horizon = some a := by
  rw [next?_eq_some_iff] at hnext ⊢
  rcases hnext with ⟨i, b, heq, hearliest, hdue⟩ | ⟨j, js, heq, hhanded, hlate⟩
  · cases a with
    | resume => cases heq
    | timer i' b' =>
      obtain ⟨rfl, rfl⟩ := Action.timer.inj heq
      refine .inl ⟨i', b', rfl, h.earliest hearliest, ?_⟩
      rcases hdue with ⟨hnone, hle⟩ | ⟨hsome, hle⟩
      · exact .inl ⟨h.handed_eq_nil_iff.mp hnone, hle⟩
      · have hbusy := mt h.handed_eq_nil_iff.mpr hsome
        exact .inr ⟨hbusy, (h.busy hbusy).symm ▸ hle⟩
  · cases a with
    | timer => cases heq
    | resume i =>
      obtain rfl := Action.resume.inj heq
      rw [h.handed] at hhanded
      obtain ⟨i', is, hwaits, hi, -⟩ := List.map_eq_cons_iff.mp hhanded
      obtain rfl := f.injective hi
      have hclock := h.busy (by simp [hwaits])
      exact .inr ⟨i', is, rfl, hwaits, fun t ht b hb => hclock ▸ hlate t (h.mem ht) b hb⟩

/-- After any number of steps with all requests, some number of steps without those that are left out
leads to the same point. -/
lemma exists_steps_thin (hthin : Thins s f jobs jobs') (horizon n : Nat) :
    ∃ m, Follows f (steps s horizon n (start s jobs)) (steps s horizon m (start s jobs')) := by
  induction n with
  | zero => exact ⟨0, .start hthin⟩
  | succ n ih =>
    obtain ⟨m, hfollows⟩ := ih
    rcases hnext : (steps s horizon n (start s jobs)).next? horizon with _ | a
    · rw [steps_add, steps_eq_self hnext]
      exact ⟨m, hfollows⟩
    · have hr : (steps s horizon n (start s jobs)).Sound s jobs := Reachable.start.steps.sound
      have hr' : (steps s horizon m (start s jobs')).Sound s jobs' := Reachable.start.steps.sound
      have ha := (allowed_of_next? hnext).1
      rw [steps_succ hnext]
      by_cases hplace : a.place ∈ Set.range f
      · obtain ⟨b, rfl⟩ := Action.exists_rename hplace
        refine ⟨m + 1, ?_⟩
        rw [steps_succ (hfollows.next? hnext)]
        exact (hfollows.keep hr hr' ha (hfollows.allowed hr ha)).1
      · exact ⟨m, hfollows.skip hr hthin ha hplace⟩

/-- Serving the requests comes to the same as serving them without those that are left out. -/
theorem serve_agrees (hthin : Thins s f jobs jobs') (horizon : Nat) :
    Agrees f (serve s jobs horizon) (serve s jobs' horizon) := by
  obtain ⟨m, hfollows⟩ := exists_steps_thin hthin horizon (turnsPerRequest * jobs.length)
  have hstopped := hfollows.stops (stoppedAt_serve s jobs horizon).2
  rw [serve_eq_steps hstopped]
  exact hfollows.toAgrees

/-! ## Requests that are answered at once -/

/-- What a run promises to a request that is answered without admission, at any point of the run and
however many others wait for a slot. -/
structure AnsweredAtOnce (s : Service) (r : Run) (t : Task) (entries : List LogEntry)
    (resp : Http.Response) : Prop where
  /-- Only entries of the log are seen of it, when it arrives. No collaborator is called for it, and
  nothing is measured. -/
  quiet : ∀ e ∈ t.trace, e.1 = t.job.arrival ∧ ∃ entry, e.2 = .log entry
  /-- The clock does not pass its arrival before it has ended. -/
  prompt : t.hasEnded = false → r.clock ≤ t.job.arrival
  /-- It ends with its answer when it arrives, or it is cancelled before it arrives. -/
  outcomes : ∀ o, t.outcome? = some o →
    o = .response t.job.arrival { resp with fields := s.crossOrigin.apply resp.fields } ∨
      o = .cancelled ∧ ¬ t.job.Arrives ∧ t.trace = []
  /-- When everything that is due at its arrival has happened, it has been answered. -/
  ends : ∀ horizon, t.job.arrival ≤ horizon → r.StoppedAt horizon → t.job.Arrives →
    t.outcome? =
        some (.response t.job.arrival { resp with fields := s.crossOrigin.apply resp.fields }) ∧
      t.trace = ((.requestStarted t.job.request.target.shown :: entries).map .log).map
        fun x => (t.job.arrival, x)

/-- In every run a request that is answered without admission is answered when it arrives. -/
lemma Sound.answeredAtOnce (hr : r.Sound s jobs) {t : Task} (ht : t ∈ r.tasks)
    {entries : List LogEntry} {resp : Http.Response}
    (hshort : Stage.Shortcut s t.job.request entries resp) :
    AnsweredAtOnce s r t entries resp := by
  have hbrief := hr.brief ht hshort
  refine ⟨hbrief.logs, fun hopen => ?_, fun o ho => ?_, fun horizon hle hstopped harrives => ?_⟩
  · have hphase := congrArg Task.phase (hbrief.eq_ofJob hopen)
    have hown : t.ownTime? = some t.job.arrival := Task.ownTime?_eq_some_iff.mpr (.inl ⟨hphase, rfl⟩)
    obtain ⟨a, ha, hle⟩ := Task.exists_timer?_le (.inl hown)
    exact (hr.punctual t ht a ha).trans hle
  · exact hbrief.outcome ho
  · have heq := hbrief.eq_answered (hstopped.late ht) hle harrives
    exact ⟨by rw [heq]; rfl, congrArg Task.trace heq⟩

/-- Requests that are answered without admission are answered when they arrive, however busy the
gateway is, and the others do not notice them: serving a list of requests leaves all others in the same
place, with the same traces, as serving it without some of these, and it leaves the slots in the same
state. The same holds whatever the order in which the requests of one instant take their turns: every
run has a counterpart with fewer such requests, and one with more. -/
theorem apart_of_shortcut (s : Service) :
    (∀ jobs r, Reachable s jobs r → ∀ t ∈ r.tasks, ∀ entries resp,
      Stage.Shortcut s t.job.request entries resp → AnsweredAtOnce s r t entries resp) ∧
    ∀ (f : Nat ↪o Nat) (jobs jobs' : List Job), Thins s f jobs jobs' → ∀ horizon,
      Agrees f (serve s jobs horizon) (serve s jobs' horizon) ∧
      (∀ r, Reachable s jobs r → r.StoppedAt horizon →
        ∃ r', Reachable s jobs' r' ∧ r'.StoppedAt horizon ∧ Agrees f r r') ∧
      ∀ r', Reachable s jobs' r' → r'.StoppedAt horizon →
        ∃ r, Reachable s jobs r ∧ r.StoppedAt horizon ∧ Agrees f r r' := by
  refine ⟨fun jobs r hreach t ht entries resp hshort => hreach.sound.answeredAtOnce ht hshort, ?_⟩
  intro f jobs jobs' hthin horizon
  exact ⟨serve_agrees hthin horizon, fun r hr hstopped => exists_thinned hthin hr hstopped,
    fun r' hr' hstopped => exists_thickened hthin hr' hstopped⟩

end Run

/-! ## Requests between others -/

/-- The places of a list in a longer one that has `n` more entries from the place `k` on. -/
def shiftFrom (k n : Nat) : Nat ↪o Nat :=
  OrderEmbedding.ofStrictMono (fun i => if i < k then i else i + n) fun i j hlt => by
    dsimp only
    split_ifs <;> omega

/-- Requests that are answered without admission can be put anywhere between others. -/
lemma thins_append (s : Service) (front more back : List Job)
    (hmore : ∀ job ∈ more, ∃ entries resp, Stage.Shortcut s job.request entries resp) :
    Thins s (shiftFrom front.length more.length) (front ++ (more ++ back)) (front ++ back) where
  kept i := by
    change _ = (front ++ (more ++ back))[if i < front.length then i else i + more.length]?
    split
    · next hlt => rw [List.getElem?_append_left hlt, List.getElem?_append_left hlt]
    · next hge =>
      rw [List.getElem?_append_right (by omega), List.getElem?_append_right (by omega),
        List.getElem?_append_right (by omega)]
      congr 1
      omega
  spared j job hjob hplace := by
    have hrange (i : Nat) : (if i < front.length then i else i + more.length) ≠ j := fun heq =>
      hplace ⟨i, heq⟩
    have hfront : front.length ≤ j := by
      by_contra hlt
      have hne := hrange j
      split_ifs at hne
      · exact hne rfl
      · omega
    have hback : j - front.length < more.length := by
      by_contra hge
      have hne := hrange (j - more.length)
      split_ifs at hne <;> omega
    rw [List.getElem?_append_right hfront, List.getElem?_append_left hback] at hjob
    exact hmore job (List.mem_of_getElem? hjob)

namespace Run

/-- A request without a secret, and without fields. -/
def bareJob (arrival : Nat) (method : Http.Method) (target : String) : Job :=
  { imageJob arrival ⟨none, .ok []⟩ with request := ⟨method, .resource target, []⟩ }

/-- While a request whose download never answers has the only slot and another one waits for it, the
health of the gateway is told at once, and neither of the two notices. -/
theorem apart_of_rivals :
    let s := Service.ofConfig oneSlot 0
    let more := [bareJob 2 .get "/health", bareJob 3 .options "/plain/a",
      bareJob 4 (.other "POST") "/health"]
    let r := serve s ([imageJob 0 ⟨none, .ok []⟩] ++ (more ++ [imageJob 1 ⟨some 5, .ok [1]⟩])) 20000
    (∃ t, r.tasks[1]? = some t ∧ t.outcome? =
      some (.response 2 (.plain .ok "image-gateway is running"))) ∧
    r.tasks[4]? = (serve s rivals 20000).tasks[1]? ∧
      r.shared.admission.free = (serve s rivals 20000).shared.admission.free := by
  intro s more r
  have hmore : ∀ job ∈ more, ∃ entries resp, Stage.Shortcut s job.request entries resp := by
    intro job hjob
    simp only [more, List.mem_cons, List.not_mem_nil, or_false] at hjob
    rcases hjob with rfl | rfl | rfl
    · exact ⟨_, _, .health rfl rfl rfl⟩
    · exact ⟨_, _, .options rfl⟩
    · exact ⟨_, _, .method (by decide) (by decide)⟩
  obtain ⟨honce, hthin⟩ := apart_of_shortcut s
  have hagrees : Agrees (shiftFrom 1 3) r (serve s rivals 20000) :=
    (hthin _ _ _ (thins_append s [imageJob 0 ⟨none, .ok []⟩] more
      [imageJob 1 ⟨some 5, .ok [1]⟩] hmore) 20000).1
  have hreach : Reachable s _ r := reachable_serve _ _ _
  have hstopped : r.StoppedAt 20000 := stoppedAt_serve _ _ _
  obtain ⟨t, htask, hjob⟩ : ∃ t, r.tasks[1]? = some t ∧ t.job = bareJob 2 .get "/health" := by
    have hlength := congrArg List.length hreach.sound.jobs
    rw [List.length_map] at hlength
    have htask := List.getElem?_eq_getElem (show 1 < r.tasks.length by simp [hlength, more])
    exact ⟨_, htask, (Option.some.inj (hreach.sound.job htask)).symm⟩
  have hshort : Stage.Shortcut s t.job.request [] (.plain .ok "image-gateway is running") := by
    rw [hjob]
    exact .health rfl rfl rfl
  have hanswer := (honce _ _ hreach t (List.mem_of_getElem? htask) _ _ hshort).ends 20000
    (by rw [hjob]; decide) hstopped (by rw [hjob]; intro c hc; cases hc)
  rw [hjob] at hanswer
  refine ⟨⟨t, htask, hanswer.1⟩, (hagrees.tasks 1).symm, ?_⟩
  rw [hagrees.admission, Admission.rename_free]

end Run

end Gateway
