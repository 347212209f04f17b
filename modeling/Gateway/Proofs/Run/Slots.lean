import Mathlib
import Gateway.Proofs.Run.Reachable
import Gateway.Proofs.Run.Visit

/-!
# The slots of a run

Every slot that is not available belongs to a request: to one that has been admitted and has not
ended, or to one in the line to which it has been handed (`Run.accounted_of_reachable`). So there are
never more requests between admission and exit than there are slots, and when all requests have ended
all slots are available again, however they have ended.

The invariant of a run says how each request stands towards the slots where it stops; what has been
seen of the request says the same (`Task.Course.isInside_iff`).
-/

namespace Gateway

/-- A request that is admitted on its arrival needs a slot, finds a free one, and goes through the
stages with it. -/
lemma Stage.admission_of_arrive {s : Service} {job : Job} {now i : Nat} {shared : Shared}
    (hfit : shared.Fits s i .expected)
    (hgauge : (arrive s job i now shared).events.countP Event.isGauge ≠ 0) :
    NeedsSlot s job.request ∧ shared.admission.holders.length < s.capacity ∧
      arrive s job i now shared =
        Turn.after [.log (.requestStarted job.request.target.shown), .requestCounted]
          (admitted s job i now { shared with admission := shared.admission.arrive i }) := by
  have hsum := hfit.valid.sum
  rw [hfit.capacity] at hsum
  by_cases hneeds : NeedsSlot s job.request
  · by_cases hfree : 0 < shared.admission.free
    · exact ⟨hneeds, by omega, arrive_of_free hneeds hfit.standing hfree⟩
    · rw [arrive_of_taken hneeds hfit.standing hfree] at hgauge
      exact absurd rfl hgauge
  · obtain ⟨es, r, hlogs, harrive⟩ := arrive_of_not_needsSlot hneeds now
    rw [harrive] at hgauge
    refine absurd (List.countP_eq_zero.mpr fun x hx => ?_) hgauge
    obtain ⟨entry, rfl⟩ := hlogs x hx
    simp [Event.isGauge]

namespace Task

variable {s : Service} {last now i : Nat} {shared : Shared} {t : Task} {turn : Turn}

namespace Course

/-- A request is inside exactly where it holds a slot. -/
lemma isInside_iff (h : Course s last t) : t.isInside = true ↔ t.phase.standing = .holds := by
  have hgauges := h.gauges.1
  have hvisit : t.isInside = true ↔ t.events.countP Event.isGauge ≠ 0 ∧ t.hasEnded = false := by
    simp [isInside, visit_eq_nil_iff]
  rw [hvisit]
  unfold hasEnded
  rcases hphase : t.phase with _ | _ | _ | _ | _ <;> rw [hphase] at hgauges <;>
    simp_all [Phase.Gauges, Phase.standing]

/-- A request that has been admitted has marked its admission, and its exit once it has ended. -/
lemma marks (h : Course s last t) : t.events.countP Event.isGauge =
    if t.visit.isEmpty then 0 else if t.hasEnded then 2 else 1 := by
  have hgauges := h.gauges.1
  by_cases hnone : t.events.countP Event.isGauge = 0
  · simp [hnone, visit_eq_nil_iff.mpr hnone]
  · have hvisit : t.visit.isEmpty = false := by simp [visit_eq_nil_iff, hnone]
    rw [hvisit]
    rcases hphase : t.phase with _ | _ | _ | _ | _ <;> rw [hphase] at hgauges
    · exact absurd hgauges hnone
    · exact absurd hgauges hnone
    · simpa [hasEnded, hphase, Phase.Gauges] using hgauges
    · simpa [hasEnded, hphase, Phase.Gauges] using hgauges
    · simpa [hasEnded, hphase] using hgauges.resolve_left hnone

end Course

/-- A turn with which a request is admitted: it needs a slot, fewer than all slots are held before, it
is not cancelled before, and it goes through the stages with the slot that it gets. -/
lemma Takes.admission (h : t.Takes s now i shared turn) (hcourse : Course s last t)
    (hfit : shared.Fits s i t.phase) (hbefore : t.events.countP Event.isGauge = 0)
    (hgauge : turn.events.countP Event.isGauge ≠ 0) :
    Stage.NeedsSlot s t.job.request ∧ shared.admission.holders.length < s.capacity ∧
      (∀ c, t.job.cancelAt = some c → now ≤ c) ∧ ∃ front shared',
        front.countP Event.isGauge = 0 ∧
          turn = Turn.after front (Stage.admitted s t.job i now shared') := by
  have hgauges := hbefore ▸ hcourse.gauges.1
  cases h with
  | fires htimer =>
    rcases hphase : t.phase with _ | _ | _ | _ | _ <;> rw [hphase] at hfit hgauges hgauge
    · obtain ⟨hneeds, hlt, harrive⟩ := Stage.admission_of_arrive hfit hgauge
      refine ⟨hneeds, hlt, fun c hc => ?_, _, _, rfl, harrive⟩
      exact time_le_of_cancelTime? htimer (cancelTime?_eq_some_iff.mpr ⟨by simp [hphase], hc⟩)
    · exact absurd rfl hgauge
    · cases hgauges
    · cases hgauges
    · exact absurd rfl hgauge
  | cancels htimer =>
    rcases hphase : t.phase with _ | _ | _ | _ | _ <;> rw [hphase] at hgauges hgauge
    · exact absurd rfl hgauge
    · exact absurd rfl hgauge
    · cases hgauges
    · cases hgauges
    · exact absurd rfl hgauge
  | resumes hphase hhanded hcancel =>
    have hsum := hfit.valid.sum
    rw [hfit.capacity] at hsum
    have hpos := List.length_pos_of_mem hhanded
    exact ⟨hcourse.needsSlot hphase, by omega, hcancel, [], _, rfl, (Turn.after_nil _).symm⟩

end Task

namespace Run

variable {s : Service} {jobs : List Job} {r : Run}

namespace Sound

/-- The requests inside are the ones that hold a slot. -/
lemma countP_isInside (hr : r.Sound s jobs) :
    r.tasks.countP Task.isInside = r.shared.admission.holders.length := by
  -- both lists name the places of the requests that hold a slot, each of them once
  have hperm : (r.tasks.findIdxs Task.isInside).Perm r.shared.admission.holders := by
    refine (List.perm_ext_iff_of_nodup List.nodup_findIdxs hr.valid.nodup_holders).mpr fun i => ?_
    rw [List.mem_findIdxs_iff_exists_getElem_pos, ← Admission.standing_eq_holds, hr.standing i]
    by_cases hi : i < r.tasks.length
    · obtain ⟨last, -, hcourse⟩ := hr.course _ (List.getElem_mem hi)
      simp [hi, hcourse.isInside_iff]
    · simp [hi]
  rw [← List.length_findIdxs, hperm.length_eq]

/-- A request to which a slot has been handed is in the line. -/
lemma queued_of_handed (hr : r.Sound s jobs) {i : Nat} (hi : i ∈ r.shared.admission.handed) :
    ∃ t, r.tasks[i]? = some t ∧ t.phase = .queued := by
  obtain ⟨t, htask, hphase, -⟩ := hr.takes_resume hi
  exact ⟨t, htask, hphase⟩

end Sound

/-- What a service promises about the slots at a point of its run. -/
structure Accounted (s : Service) (r : Run) : Prop where
  /-- The slots in use and the available ones are all that there are. -/
  available : r.shared.admission.free + r.shared.admission.inUse = s.capacity
  /-- One slot is in use for each request inside, and one for each to which a freed slot has been
  handed. -/
  in_use : r.shared.admission.inUse =
    r.tasks.countP Task.isInside + r.shared.admission.handed.length
  /-- The requests to which a slot has been handed are in the line, and each of them has been handed
  one slot. -/
  handed : r.shared.admission.handed.Nodup ∧
    ∀ i ∈ r.shared.admission.handed, ∃ t, r.tasks[i]? = some t ∧ t.phase = .queued
  /-- There are never more requests inside than slots. -/
  bounded : r.tasks.countP Task.isInside ≤ s.capacity
  /-- A request is only admitted while fewer requests are inside than there are slots, so that this
  bound also holds within a turn. -/
  admits : ∀ a, r.Allowed a → ∀ t t', r.tasks[a.place]? = some t →
    (r.act s a).tasks[a.place]? = some t' → t.visit = [] → t'.visit ≠ [] →
      r.tasks.countP Task.isInside < s.capacity
  /-- A request marks its admission, and its exit when it ends. -/
  marks : ∀ t ∈ r.tasks, t.events.countP Event.isGauge =
    if t.visit.isEmpty then 0 else if t.hasEnded then 2 else 1
  /-- It only calls collaborators when it has marked its admission and not yet its exit. -/
  calls : ∀ t ∈ r.tasks, ∀ front x back, t.events = front ++ x :: back → x.isCall = true →
    front.countP Event.isGauge = 1
  /-- When all requests have ended, all slots are available. -/
  restored : (∀ t ∈ r.tasks, t.hasEnded = true) → r.shared.admission.free = s.capacity

/-- Whatever the requests and the collaborators do and in whatever order, every slot in use belongs
to a request that has been admitted and has not ended or to which it has been handed. -/
theorem accounted_of_reachable (hreach : Reachable s jobs r) : Accounted s r := by
  have hr := hreach.sound
  have hinside := hr.countP_isInside
  have hsum := hr.valid.sum
  have huse := hr.valid.inUse_eq
  rw [hr.capacity] at hsum
  refine ⟨by omega, by omega, ⟨hr.valid.nodup_handed, fun i hi => hr.queued_of_handed hi⟩, by omega,
    fun a ha t t' ht ht' hbefore hafter => ?_, fun t ht => ?_, fun t ht front x back hsplit hx => ?_,
    fun hall => ?_⟩
  · obtain ⟨u, hu, -, -, htakes⟩ := hr.takes ha
    obtain rfl := Option.some.inj (ht.symm.trans hu)
    obtain ⟨last, -, hcourse⟩ := hr.course t (List.mem_of_getElem? ht)
    rw [Task.visit_eq_nil_iff] at hbefore
    rw [hinside]
    refine (htakes.admission hcourse (hr.fits ht) hbefore fun hnone => hafter ?_).2.1
    have hlt := (List.getElem?_eq_some_iff.mp ht).1
    rw [act_of_task ht] at ht'
    simp only [List.getElem?_set_self hlt, Option.some.injEq] at ht'
    rw [← ht', Task.visit_eq_nil_iff, Task.after, Task.events_moved, List.countP_append, hbefore,
      hnone]
  · obtain ⟨last, -, hcourse⟩ := hr.course t ht
    exact hcourse.marks
  · obtain ⟨last, -, hcourse⟩ := hr.course t ht
    have hone := hcourse.gauges.2 front x back hsplit hx
    rwa [Nat.zero_add] at hone
  · have hnobody : r.tasks.countP Task.isInside = 0 := by
      rw [List.countP_eq_zero]
      intro t ht
      simp [Task.isInside, hall t ht]
    have hhanded : r.shared.admission.handed = [] := by
      rw [List.eq_nil_iff_forall_not_mem]
      intro i hi
      obtain ⟨t, htask, hphase⟩ := hr.queued_of_handed hi
      have hended := hall t (List.mem_of_getElem? htask)
      simp [Task.hasEnded, hphase] at hended
    rw [hhanded, List.length_nil] at hsum
    omega

/-- At the point where the only slot has just been taken from a request that has timed out, it has been
handed to the next one, and it is still accounted for. -/
theorem accounted_after_handover :
    let r := steps (.ofConfig oneSlot 0) 10000 3 (start (.ofConfig oneSlot 0) rivals)
    Reachable (.ofConfig oneSlot 0) rivals r ∧ r.shared.admission.handed = [1] ∧
      Accounted (.ofConfig oneSlot 0) r :=
  ⟨Reachable.start.steps, by decide +kernel, accounted_of_reachable Reachable.start.steps⟩

end Run

end Gateway
