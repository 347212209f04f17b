import Mathlib
import Gateway.Service.Basic

/-!
# Deadlines at whole milliseconds

In a run every deadline starts at a whole millisecond and lasts for a whole number of them. Then the
timer is exact, and a deadline behaves as its two ends say: this file states, in milliseconds, when
it expires, how much of it is left, and what comes of a call made under it. A call that has not
answered when the deadline expires ends there with a timeout (`Deadline.run_of_late`), every other
call ends when it answers and with what it answers (`Deadline.run_of_due`).
-/

namespace Gateway

/-! ## Instants -/

lemma perMilli_pos : 0 < Duration.perMilli := by decide

lemma instantOf_add (m n : Nat) : instantOf (m + n) = instantOf m + instantOf n :=
  Nat.add_mul m n _

lemma instantOf_sub (m n : Nat) : instantOf (m - n) = instantOf m - instantOf n :=
  Nat.sub_mul m n _

/-- Instants are ordered as their milliseconds. -/
lemma instantOf_le_instantOf {m n : Nat} : instantOf m ≤ instantOf n ↔ m ≤ n :=
  Nat.mul_le_mul_right_iff perMilli_pos

/-- What comes after the instant of a millisecond comes after those of all earlier ones. -/
lemma instantOf_lt_of_le {m n bound : ℕ} (hmn : m ≤ n) (h : instantOf n < bound) :
    instantOf m < bound :=
  (instantOf_le_instantOf.mpr hmn).trans_lt h

lemma nanos_ofMillis (n : Nat) : (Duration.ofMillis n).nanos = instantOf n := rfl

/-- A second is a thousand milliseconds. -/
lemma ofSecs_eq_ofMillis (n : Nat) : Duration.ofSecs n = .ofMillis (1000 * n) := by
  have h : n * Duration.perSecond = 1000 * n * Duration.perMilli := by
    unfold Duration.perSecond Duration.perMilli
    omega
  exact congrArg Duration.mk h

/-- Whether a call made at the millisecond `start` is still unanswered after the millisecond
`limit`. -/
def Call.IsLate {α : Type} (c : Call α) (start limit : Nat) : Prop :=
  ∀ delay, c.delay = some delay → limit < start + delay

/-- A call that is not late answers by the limit. -/
lemma Call.exists_delay_of_not_isLate {α : Type} {c : Call α} {start limit : Nat}
    (h : ¬ c.IsLate start limit) : ∃ delay, c.delay = some delay ∧ start + delay ≤ limit := by
  unfold IsLate at h
  push Not at h
  exact h

namespace Deadline

/-- The instant of a millisecond lies in that millisecond. -/
@[simp] lemma tickOf_instantOf (n : Nat) : tickOf (instantOf n) = n :=
  Nat.mul_div_cancel n perMilli_pos

/-- A timer for the instant of a millisecond fires in that millisecond. -/
@[simp] lemma timerTick_instantOf (n : Nat) : timerTick (instantOf n) = n := by
  unfold timerTick instantOf
  rw [Nat.add_comm, Nat.add_mul_div_right _ _ perMilli_pos,
    Nat.div_eq_of_lt (Nat.sub_lt perMilli_pos Nat.one_pos), Nat.zero_add]

/-- The deadline from one millisecond to another. -/
def between (start limit : Nat) : Deadline := ⟨instantOf start, instantOf limit⟩

/-- A deadline of whole milliseconds that starts at one of them ends at one of them. -/
lemma eq_between_of_start? {start budget : Nat} {d : Deadline}
    (h : start? (instantOf start) (.ofMillis budget) = some d) :
    d = between start (start + budget) := by
  unfold start? at h
  split at h
  · rw [nanos_ofMillis, ← instantOf_add] at h
    exact (Option.some.inj h).symm
  · cases h

variable {start limit now : Nat}

/-- A deadline has expired from its last millisecond on. -/
lemma isExpired_between : (between start limit).isExpired (instantOf now) = decide (limit ≤ now) := by
  simp only [isExpired, between, instantOf_le_instantOf]

/-- Before a deadline has expired its last millisecond is still to come. -/
lemma lt_of_isExpired_between (h : (between start limit).isExpired (instantOf now) = false) :
    now < limit := by
  rw [isExpired_between, decide_eq_false_iff_not] at h
  exact Nat.lt_of_not_le h

/-- The time since the start. -/
lemma elapsed_between :
    (between start limit).elapsed (instantOf now) = .ofMillis (now - start) := by
  simp only [elapsed, between, ← instantOf_sub]
  rfl

/-- The time left. -/
lemma tickOf_remaining_between :
    tickOf ((between start limit).remaining (instantOf now)).nanos = limit - now := by
  simp only [remaining, between, ← instantOf_sub, tickOf_instantOf]

/-- Waiting until a later millisecond ends at its instant. -/
lemma waitUntil_instantOf {tick : Nat} (h : now ≤ tick) :
    waitUntil (instantOf now) tick = instantOf tick := by
  have hsum := instantOf_add now (tick - now)
  rw [Nat.add_sub_cancel' h] at hsum
  rw [waitUntil, tickOf_instantOf, hsum]
  rfl

/-- The deadline ends a call in its last millisecond, or at once if that has passed. -/
lemma expiryTick_between : (between start limit).expiryTick (instantOf now) = max now limit := by
  simp only [expiryTick, between, tickOf_instantOf, timerTick_instantOf]

/-- A timer that runs for some milliseconds fires after them. -/
lemma timerTick_instantOf_add (delay : ℕ) :
    timerTick (instantOf now + delay * Duration.perMilli) = now + delay := by
  rw [show delay * Duration.perMilli = instantOf delay from rfl, ← instantOf_add, timerTick_instantOf]

/-- A call that answers without waiting, or by the time the deadline expires, ends with its answer. -/
lemma run_of_answers {α : Type} {c : Call α} {delay : ℕ} (hdelay : c.delay = some delay)
    (hdue : delay = 0 ∨ now + delay ≤ limit) :
    (between start limit).run (instantOf now) c =
      (instantOf (now + delay), c.answer.mapError Fault.classify) := by
  have hsettle : (between start limit).settlement (instantOf now) c.delay =
      (now + delay, true) := by
    rw [hdelay]
    rcases delay with _ | k
    · simp only [settlement, tickOf_instantOf, Nat.add_zero]
    · have hintime : now + (k + 1) ≤ max now limit := by omega
      simp only [settlement, timerTick_instantOf_add, expiryTick_between, hintime, if_true]
  simp only [run, hsettle, waitUntil_instantOf (Nat.le_add_right now delay), if_true]
  cases c.answer <;> rfl

/-- Every other call ends with a timeout: when the deadline expires, or at once if it has expired. -/
lemma run_of_expires {α : Type} {c : Call α}
    (hlate : ∀ delay, c.delay = some delay → delay ≠ 0 ∧ limit < now + delay) :
    (between start limit).run (instantOf now) c =
      (instantOf (max now limit), .error (.timeout (.ofMillis (max now limit - start)))) := by
  have hsettle : (between start limit).settlement (instantOf now) c.delay =
      (max now limit, false) := by
    rcases hdelay : c.delay with _ | delay
    · simp only [settlement, expiryTick_between]
    · obtain ⟨hwaits, hpast⟩ := hlate delay hdelay
      obtain ⟨k, rfl⟩ := Nat.exists_eq_succ_of_ne_zero hwaits
      have hafter : ¬ now + (k + 1) ≤ max now limit := by omega
      simp only [settlement, timerTick_instantOf_add, expiryTick_between, hafter, if_false]
  simp only [run, hsettle, waitUntil_instantOf (Nat.le_max_left now limit), elapsed_between]
  rfl

/-- A call that is still unanswered when the deadline expires ends there with a timeout. -/
lemma run_of_late {α : Type} {c : Call α} (hnow : now < limit) (hlate : c.IsLate now limit) :
    (between start limit).run (instantOf now) c =
      (instantOf limit, .error (.timeout (.ofMillis (limit - start)))) := by
  have hwaits : ∀ delay, c.delay = some delay → delay ≠ 0 ∧ limit < now + delay := by
    intro delay hdelay
    have hpast := hlate delay hdelay
    exact ⟨by omega, hpast⟩
  rw [run_of_expires hwaits, Nat.max_eq_right hnow.le]

/-- A call that answers by the time the deadline expires ends when it answers. -/
lemma run_of_due {α : Type} {c : Call α} {delay : Nat} (hdelay : c.delay = some delay)
    (hdue : now + delay ≤ limit) :
    (between start limit).run (instantOf now) c =
      (instantOf (now + delay), c.answer.mapError Fault.classify) :=
  run_of_answers hdelay (.inr hdue)

/-- A value that comes out of a call is the one that the collaborator answered with. -/
lemma answer_of_run {α : Type} {d : Deadline} {c : Call α} {instant ending : Nat} {a : α}
    (h : d.run instant c = (ending, .ok a)) : c.answer = .ok a := by
  rcases hanswer : c.answer with f | b
  · simp only [run, hanswer] at h
    split at h <;> cases h
  · simp only [run, hanswer] at h
    split at h <;> cases h
    rfl

end Deadline

end Gateway
