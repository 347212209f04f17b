import Mathlib
import Gateway.Proofs.Run.Budget
import Gateway.Proofs.Run.Isolation
import Gateway.Proofs.Stage.Fate

/-!
# Requests meet their fate

In a run an admitted request takes several turns, with those of others in between, and it may be
cancelled on the way. Still it does what its fate says, turn by turn (`Task.Fated`): as long as it is
inside, what has been seen of it and the fate that awaits it where it stops make up its whole fate, and
if it is answered it has played out all of it. Only a cancellation can keep it from doing so, and only
before the end (`Run.fulfilled_of_reachable`).
-/

namespace Gateway

namespace Task

/-- How the visit of a request that was admitted at a millisecond can have gone, if its time is up at
another one: what has been seen of it, and where it stops. -/
inductive Fated (s : Service) (job : Job) (grant limit : Nat) : List (Nat × Event) → Phase → Prop
  /-- The rest of its fate awaits it. -/
  | inside (n : Nat) {seen : List (Nat × Event)} {p : Phase} {rest : Fate}
      (hrest : Stage.Awaits s job grant limit p rest)
      (hfate : Fate.ofAdmitted s job grant limit = rest.after seen) :
      Fated s job grant limit ((grant, .slotsInUse n) :: seen) p
  /-- It has left as its fate says. -/
  | left (n m : Nat) {fate : Fate} (hfate : Fate.ofAdmitted s job grant limit = fate) :
      Fated s job grant limit (fate.visit grant n m) (Stage.answered s fate.finish fate.response)
  /-- It has been cancelled before. -/
  | cancelled (n m : Nat) (img : Bool) {seen : List (Nat × Event)} {c : Nat}
      (hcancel : job.cancelAt = some c)
      (hseen : seen <+: (Fate.ofAdmitted s job grant limit).seen)
      (hlt : c < (Fate.ofAdmitted s job grant limit).finish) :
      Fated s job grant limit
        ((grant, .slotsInUse n) :: (seen ++ (Fate.departure img m).map fun x => (c, x)))
        (.ended .cancelled)

variable {s : Service} {job : Job} {grant limit now last : Nat} {t : Task}

/-- A turn that plays out the beginning of what awaits a request takes it further on its way. -/
lemma fated_of_begins {w : List Event} {e : Stage.Ending} {rest : Fate}
    {seen : List (Nat × Event)} (hbegins : Stage.Begins s job grant limit now w e rest)
    (hfate : Fate.ofAdmitted s job grant limit = rest.after seen) (n : Nat) (shared : Shared) :
    Fated s job grant limit
      ((grant, .slotsInUse n) :: (seen ++ (w ++ e.events shared).map fun x => (now, x)))
      (e.phase s now) := by
  cases hbegins with
  | leaves img result =>
    have hleft := Fated.left n (shared.admission.inUse - 1) hfate
    rw [Fate.visit, ← Fate.events_leaves, ← Fate.phase_leaves] at hleft
    simpa only [Fate.after, List.map_append, List.append_assoc] using hleft
  | waits hrest =>
    rw [Fate.after_after] at hfate
    have hinside := Fated.inside n hrest hfate
    simpa only [Stage.Ending.events, Stage.Ending.phase, List.append_nil] using hinside

/-- A request that has ended has met its fate, or it has been cancelled before. -/
lemma Fated.of_ended {v : List (Nat × Event)} {o : Outcome}
    (h : Fated s job grant limit v (.ended o)) {fate : Fate}
    (hfate : Fate.ofAdmitted s job grant limit = fate) :
    (o = .response fate.finish
        { fate.response with fields := s.crossOrigin.apply fate.response.fields } ∧
      ∃ n m, v = fate.visit grant n m) ∨
    o = .cancelled ∧ ∃ c, job.cancelAt = some c ∧ c < fate.finish ∧
      ∃ n m img seen, seen <+: fate.seen ∧
        v = (grant, .slotsInUse n) :: (seen ++ (Fate.departure img m).map fun x => (c, x)) := by
  subst hfate
  generalize hp : Phase.ended o = p at h
  cases h with
  | inside n hrest =>
    obtain ⟨q, hq⟩ := hrest.exists_pending
    rw [← hp] at hq
    cases hq
  | left n m hfate =>
    subst hfate
    exact .inl ⟨Phase.ended.inj hp, n, m, rfl⟩
  | cancelled n m img hcancel hseen hlt =>
    exact .inr ⟨Phase.ended.inj hp, _, hcancel, hlt, n, m, img, _, hseen, rfl⟩

/-- A request that has not ended waits for a call that ends before its fate does. -/
lemma Fated.exists_pending {v : List (Nat × Event)} {p : Phase} (h : Fated s job grant limit v p)
    (hopen : ∀ o, p ≠ .ended o) :
    ∃ q, p.pending? = some q ∧ q.tick ≤ (Fate.ofAdmitted s job grant limit).finish := by
  cases h with
  | inside n hrest hfate =>
    obtain ⟨q, hq⟩ := hrest.exists_pending
    rw [hfate, Fate.after_finish]
    exact ⟨q, hq, hrest.tick_le hq⟩
  | left | cancelled => exact absurd rfl (hopen _)

/-- Along its course a request that has been admitted goes the way of its fate. -/
lemma Course.fated (h : Course s last t) (hgrant : t.grantTime? = some grant)
    (hstart : Deadline.start? (instantOf grant) s.writeTimeout = some (.between grant limit))
    (hle : grant ≤ limit) : Fated s t.job grant limit t.visit t.phase := by
  induction h with
  | expected job => cases hgrant
  | @turn last now i shared t turn ht hlast hfit htakes ih =>
    rw [after_job, after_phase]
    by_cases hvisit : t.visit = []
    · -- the turn admits the request
      obtain ⟨rfl, -, -, -, front, shared', rfl, hseen⟩ := htakes.grant ht hfit hvisit hgrant
      obtain ⟨turn, ⟨w, e, hamounts, hbegins⟩, hadmitted⟩ :=
        @Stage.plays_admitted s t.job limit now _ rfl hstart hle
      obtain ⟨pool, hturn⟩ := hamounts i shared'
      rw [hseen, Turn.after_phase, hadmitted, hturn]
      exact fated_of_begins hbegins (Fate.after_nil _).symm shared'.admission.inUse _
    · rw [after, grantTime?_moved_of_admitted hvisit] at hgrant
      rw [after, visit_moved_of_admitted hvisit]
      have hfated := ih hgrant
      have hinside {q : Pending} (hq : t.phase.pending? = some q) :
          ∃ n seen rest, t.visit = (grant, .slotsInUse n) :: seen ∧
            Stage.Awaits s t.job grant limit t.phase rest ∧
            Fate.ofAdmitted s t.job grant limit = rest.after seen := by
        generalize t.visit = visit, t.phase = p at hfated hq
        cases hfated with
        | inside n hrest hfate => exact ⟨n, _, _, rfl, hrest, hfate⟩
        | left | cancelled => cases hq
      cases htakes with
      | fires htimer =>
        obtain ⟨q, hq⟩ := ht.exists_pending hvisit htimer
        obtain ⟨n, seen, rest, hbefore, hrest, hfate⟩ := hinside hq
        obtain rfl : q.tick = now := by
          rcases timer?_eq_some_iff.mp htimer with ⟨hown, -, -⟩ | ⟨-, hcancels, -⟩
          · have htick := ownTime?_eq_some_iff.mpr (.inr ⟨q, hq, rfl⟩)
            exact Option.some.inj (htick.symm.trans hown)
          · cases hcancels
        obtain ⟨w, e, hamounts, hbegins⟩ := hrest.plays hq
        obtain ⟨pool, hturn⟩ := hamounts i shared
        simp only at hturn
        rw [hbefore, hturn]
        exact fated_of_begins hbegins hfate n _
      | cancels htimer =>
        obtain ⟨q, hq⟩ := ht.exists_pending hvisit htimer
        obtain ⟨n, seen, rest, hbefore, hrest, hfate⟩ := hinside hq
        obtain ⟨-, hcancel, hlt⟩ := phase_of_cancels htimer
        have hfinish : now < (Fate.ofAdmitted s t.job grant limit).finish := by
          have htick := hlt q.tick (ownTime?_eq_some_iff.mpr (.inr ⟨q, hq, rfl⟩))
          rw [hfate, Fate.after_finish]
          exact htick.trans_le (hrest.tick_le hq)
        have hprefix : seen <+: (Fate.ofAdmitted s t.job grant limit).seen := by
          rw [hfate, Fate.after_seen]
          exact List.prefix_append seen rest.seen
        have hcancelled (img : Bool) :=
          Fated.cancelled n (shared.admission.inUse - 1) img hcancel hprefix hfinish
        rw [hbefore]
        rcases hphase : t.phase with _ | _ | _ | _ | o <;> rw [hphase] at hq
        · cases hq
        · cases hq
        · exact hcancelled false
        · exact hcancelled true
        · cases hq
      | resumes hqueued => exact absurd hqueued (ht.ne_of_admitted hvisit).2

end Task

namespace Run

/-- What the fate of an admitted request promises at any point of a run. -/
structure Fulfilled (s : Service) (r : Run) (t : Task) (grant : Nat) (fate : Fate) : Prop where
  /-- If it is answered, it has left when and as its fate says, and everything has been seen of it from
  its admission on that its fate tells, and nothing else. -/
  answered : ∀ finish resp, t.outcome? = some (.response finish resp) →
    finish = fate.finish ∧
      resp = { fate.response with fields := s.crossOrigin.apply fate.response.fields } ∧
      ∃ n m, t.visit = fate.visit grant n m
  /-- If it is cancelled, this happens before the end of its fate, and it has played out its beginning.
  -/
  cancelled : t.outcome? = some .cancelled → ∃ c, t.job.cancelAt = some c ∧ c < fate.finish ∧
    ∃ n m img seen, seen <+: fate.seen ∧ t.visit =
      (grant, .slotsInUse n) :: (seen ++ (Fate.departure img m).map fun x => (c, x))
  /-- It is not given up. -/
  not_panicked : t.outcome? ≠ some .panicked
  /-- When everything that is due at the end of its fate has happened, it has ended. -/
  ends : ∀ horizon, fate.finish ≤ horizon → r.StoppedAt horizon → t.hasEnded = true
  /-- If it fails, its response has the status and the public message of the failure. -/
  fails : ∀ failure, fate.result = .error failure →
    fate.response.status = failure.status ∧
      fate.response.body = Utf8.ofString failure.publicMessage

/-- In every run an admitted request whose deadline is in the range of the clock meets the fate that its
collaborators and its time determine. A failure that a collaborator reports is told as it is. -/
theorem fulfilled_of_reachable {s : Service} {budget : Nat}
    (hlimit : s.writeTimeout = .ofMillis budget) {jobs : List Job} {r : Run}
    (hreach : Reachable s jobs r) {t : Task} (ht : t ∈ r.tasks) {grant : Nat}
    (hgrant : t.grantTime? = some grant)
    (hrange : instantOf (grant + budget) < Deadline.clockEnd) :
    Fulfilled s r t grant (.ofAdmitted s t.job grant (grant + budget)) ∧
      ∀ failure, (Fault.known failure).classify = failure := by
  have hr := hreach.sound
  obtain ⟨last, -, hcourse⟩ := hr.course t ht
  have hstart : Deadline.start? (instantOf grant) s.writeTimeout =
      some (.between grant (grant + budget)) := by
    rw [hlimit, Deadline.start?, nanos_ofMillis, ← instantOf_add, if_pos hrange]
    rfl
  have hfated := hcourse.fated hgrant hstart (Nat.le_add_right _ _)
  have hended {o : Outcome} (ho : t.outcome? = some o) :=
    (Task.outcome?_eq_some_iff.mp ho ▸ hfated).of_ended rfl
  refine ⟨⟨fun finish resp ho => ?_, fun ho => ?_, fun ho => ?_, fun horizon hle hstopped => ?_,
    fun failure hfailure => ?_⟩, fun _ => rfl⟩
  · rcases hended ho with ⟨heq, hvisit⟩ | ⟨hcancelled, -⟩
    · obtain ⟨rfl, rfl⟩ := Outcome.response.inj heq
      exact ⟨rfl, rfl, hvisit⟩
    · cases hcancelled
  · rcases hended ho with ⟨heq, -⟩ | ⟨-, hcancelled⟩
    · cases heq
    · exact hcancelled
  · rcases hended ho with ⟨heq, -⟩ | ⟨hcancelled, -⟩
    · cases heq
    · cases hcancelled
  · by_contra hopen
    have hphase : ∀ o, t.phase ≠ .ended o := by
      intro o ho
      simp [Task.hasEnded, ho] at hopen
    obtain ⟨q, hq, htick⟩ := hfated.exists_pending hphase
    obtain ⟨a, ha, htime⟩ :=
      Task.exists_timer?_le (.inl (Task.ownTime?_eq_some_iff.mpr (.inr ⟨q, hq, rfl⟩)))
    have hlater := hstopped.late ht a ha
    omega
  · rw [Fate.response, hfailure]
    exact ⟨rfl, rfl⟩

/-- The request that has waited for the only slot until the one before it timed out meets its fate five
milliseconds later, and that one has met its own. -/
theorem fulfilled_of_rivals :
    let s := Service.ofConfig oneSlot 0
    let r := serve s rivals 20000
    (∃ t ∈ r.tasks, t.grantTime? = some 0 ∧
      Fulfilled s r t 0 (.ofAdmitted s t.job 0 (0 + oneSlot.budget))) ∧
    ∃ t ∈ r.tasks, t.grantTime? = some 10000 ∧
      Fulfilled s r t 10000 (.ofAdmitted s t.job 10000 (10000 + oneSlot.budget)) ∧
      (Fate.ofAdmitted s t.job 10000 (10000 + oneSlot.budget)).finish = 10005 := by
  intro s r
  have hreach : Reachable s rivals r := reachable_serve _ _ _
  have hfirst : r.tasks[0]?.bind Task.grantTime? = some 0 := by decide +kernel
  have hsecond : r.tasks[1]?.bind Task.grantTime? = some 10000 := by decide +kernel
  obtain ⟨t, ht, hgrant⟩ := Option.bind_eq_some_iff.mp hfirst
  obtain ⟨u, hu, hlater⟩ := Option.bind_eq_some_iff.mp hsecond
  have hjob : u.job = imageJob 1 ⟨some 5, .ok [1]⟩ := (Option.some.inj (hreach.sound.job hu)).symm
  have ht := List.mem_of_getElem? ht
  have hu := List.mem_of_getElem? hu
  have hlimit := Service.writeTimeout_ofConfig oneSlot 0
  refine ⟨⟨t, ht, hgrant, (fulfilled_of_reachable hlimit hreach ht hgrant (by decide +kernel)).1⟩,
    u, hu, hlater, (fulfilled_of_reachable hlimit hreach hu hlater (by decide +kernel)).1, ?_⟩
  rw [hjob]
  decide +kernel

end Run

end Gateway
