import Mathlib
import Gateway.Proofs.Deadline.Millis

/-!
# Steps under a deadline

What is done with a deadline one step after the other, in whole milliseconds: time passes, the deadline is
asked and checked, and calls are made under it, which move the clock themselves. What comes of a step only
depends on the budget and on the time since the start (`Deadline.Yields`), and this is what the machine on
the clock answers, step by step, as long as the clock goes (`Deadline.settled_of_started`).

The cases of a call are told apart by its end: one that answers by the time the deadline expires, or
without waiting, has its answer, and every other one ends in a timeout as soon as it may. A value that
arrives in the very millisecond of the expiry is passed on, and only the next check refuses it.
-/

namespace Gateway.Deadline

section Steps

variable {α : Type} {start budget time time' : ℕ} {s : Step α} {answer : Answer α}
  {steps : List (Step α)} {outcomes : List (ℕ × Answer α)}

/-- Whether the time that a step lets pass is a whole number of milliseconds. -/
def Step.IsWhole : Step α → Prop
  | .advance span => ∃ n, span = .ofMillis n
  | _ => True

/-- What comes of a step that is taken some milliseconds after the start, and when. -/
inductive Yields (budget time : ℕ) : Step α → ℕ → Answer α → Prop where
  | advance (n : ℕ) : Yields budget time (.advance (.ofMillis n)) (time + n) .advanced
  | elapsed : Yields budget time .elapsed time (.span (.ofMillis time))
  | remaining : Yields budget time .remaining time (.span (.ofMillis (budget - time)))
  | expired : Yields budget time .expired time (.expired (decide (budget ≤ time)))
  | passes (h : time < budget) : Yields budget time .check time (.checked (.ok ()))
  | fails (h : budget ≤ time) :
      Yields budget time .check time (.checked (.error (.timeout (.ofMillis time))))
  | answers {call : Call α} {delay : ℕ} (hdelay : call.delay = some delay)
      (h : delay = 0 ∨ time + delay ≤ budget) :
      Yields budget time (.run call) (time + delay) (.ran (call.answer.mapError Fault.classify))
  | expires {call : Call α}
      (h : ∀ delay, call.delay = some delay → delay ≠ 0 ∧ budget < time + delay) :
      Yields budget time (.run call) (max time budget)
        (.ran (.error (.timeout (.ofMillis (max time budget)))))

/-- What comes of steps one after the other, each with the time since the start when it is over. -/
inductive Session (budget : ℕ) : ℕ → List (Step α) → List (ℕ × Answer α) → Prop where
  | nil {time : ℕ} : Session budget time [] []
  | cons {time time' : ℕ} {s : Step α} {answer : Answer α} {steps : List (Step α)}
      {outcomes : List (ℕ × Answer α)} (h : Yields budget time s time' answer)
      (hrest : Session budget time' steps outcomes) :
      Session budget time (s :: steps) ((time', answer) :: outcomes)

/-- What the machine answers to steps one after the other, each with the instant when it is over, unless
the clock would run past its range. -/
def play? (d : Deadline) : ℕ → List (Step α) → Option (List (ℕ × Answer α))
  | _, [] => some []
  | now, s :: steps => do
    let after ← d.step? now s
    let rest ← d.play? after.1 steps
    return after :: rest

/-- Whether an answer says that the deadline has expired. -/
def Answer.SaysExpired : Answer α → Prop
  | .expired b => b = true
  | .checked r => r ≠ .ok ()
  | _ => False

/-- Whether an answer says that the deadline has not expired. -/
def Answer.SaysOpen : Answer α → Prop
  | .expired b => b = false
  | .checked r => r = .ok ()
  | _ => False

/-! ## One step -/

/-- A step of whole milliseconds has something that comes of it. -/
lemma exists_yields (budget time : ℕ) (h : s.IsWhole) :
    ∃ time' answer, Yields budget time s time' answer := by
  rcases s with span | _ | _ | _ | _ | call
  · obtain ⟨n, rfl⟩ := h
    exact ⟨_, _, .advance n⟩
  · exact ⟨_, _, .elapsed⟩
  · exact ⟨_, _, .remaining⟩
  · exact ⟨_, _, .expired⟩
  · rcases Nat.lt_or_ge time budget with hopen | hexpired
    · exact ⟨_, _, .passes hopen⟩
    · exact ⟨_, _, .fails hexpired⟩
  · by_cases hanswers : ∃ delay, call.delay = some delay ∧ (delay = 0 ∨ time + delay ≤ budget)
    · obtain ⟨delay, hdelay, h⟩ := hanswers
      exact ⟨_, _, .answers hdelay h⟩
    · refine ⟨_, _, .expires fun delay hdelay => ?_⟩
      have hlate : ¬ (delay = 0 ∨ time + delay ≤ budget) := fun h => hanswers ⟨delay, hdelay, h⟩
      omega

/-- Time does not run backwards. -/
lemma Yields.le (h : Yields budget time s time' answer) : time ≤ time' := by
  cases h with
  | expires h => exact Nat.le_max_left time budget
  | _ => omega

/-- An answer tells whether the budget is used up when it is given. -/
lemma Yields.tells (h : Yields budget time s time' answer) :
    (answer.SaysExpired → budget ≤ time') ∧ (answer.SaysOpen → time' < budget) := by
  cases h with
  | expired => simp [Answer.SaysExpired, Answer.SaysOpen]
  | passes h => simp [Answer.SaysExpired, Answer.SaysOpen, h]
  | fails h => simp [Answer.SaysExpired, Answer.SaysOpen, h]
  | _ => exact ⟨False.elim, False.elim⟩

/-- The machine on the clock answers what comes of a step, if the clock can show when it is over. -/
lemma step?_of_yields (hnow : instantOf (start + time) < clockEnd)
    (hlimit : instantOf (start + budget) < clockEnd) (h : Yields budget time s time' answer) :
    (between start (start + budget)).step? (instantOf (start + time)) s =
      if instantOf (start + time') < clockEnd then some (instantOf (start + time'), answer)
      else none := by
  have hshown : instantOf (start + max time budget) < clockEnd := by
    rcases Nat.le_total time budget with hle | hle
    · exact (Nat.max_eq_right hle).symm ▸ hlimit
    · exact (Nat.max_eq_left hle).symm ▸ hnow
  have hin {later : ℕ} (hlater : later ≤ max time budget) : instantOf (start + later) < clockEnd :=
    instantOf_lt_of_le (Nat.add_le_add_left hlater start) hshown
  cases h with
  | advance n =>
    simp only [step?, nanos_ofMillis, ← instantOf_add, Nat.add_assoc]
  | elapsed => rw [if_pos hnow, step?, elapsed_between, Nat.add_sub_cancel_left]
  | remaining =>
    have hleft : (between start (start + budget)).remaining (instantOf (start + time)) =
        .ofMillis (budget - time) := by
      simp only [remaining, between, ← instantOf_sub, Nat.add_sub_add_left]
      rfl
    rw [if_pos hnow, step?, hleft]
  | expired =>
    rw [if_pos hnow, step?, isExpired_between]
    simp only [Nat.add_le_add_iff_left]
  | passes h =>
    have hopen : ¬ start + budget ≤ start + time := by omega
    simp only [if_pos hnow, step?, check, isExpired_between, hopen, decide_false, Bool.false_eq_true,
      if_false]
  | fails h =>
    have hexpired : start + budget ≤ start + time := by omega
    simp only [if_pos hnow, step?, check, isExpired_between, hexpired, decide_true, if_true,
      elapsed_between, Nat.add_sub_cancel_left]
  | @answers call delay hdelay h =>
    have hdue : delay = 0 ∨ start + time + delay ≤ start + budget := by omega
    rw [if_pos (hin (by omega)), step?, run_of_answers hdelay hdue, Nat.add_assoc]
  | @expires call h =>
    have hlate : ∀ delay, call.delay = some delay →
        delay ≠ 0 ∧ start + budget < start + time + delay := by
      intro delay hdelay
      obtain ⟨hwaits, hpast⟩ := h delay hdelay
      exact ⟨hwaits, by omega⟩
    rw [if_pos (hin le_rfl), step?, run_of_expires hlate, Nat.add_max_add_left,
      Nat.add_sub_cancel_left]

/-! ## All steps -/

/-- Steps of whole milliseconds have something that comes of them. -/
lemma exists_session (budget time : ℕ) (h : ∀ s ∈ steps, s.IsWhole) :
    ∃ outcomes, Session budget time steps outcomes := by
  induction steps generalizing time with
  | nil => exact ⟨[], .nil⟩
  | cons s steps ih =>
    obtain ⟨hs, hsteps⟩ := List.forall_mem_cons.mp h
    obtain ⟨time', answer, hyields⟩ := exists_yields budget time hs
    obtain ⟨outcomes, hrest⟩ := ih time' hsteps
    exact ⟨_, .cons hyields hrest⟩

/-- Every answer comes from a step, after the time at which the steps begin. -/
lemma Session.mem (h : Session budget time steps outcomes) {p : ℕ × Answer α} (hp : p ∈ outcomes) :
    time ≤ p.1 ∧ (p.2.SaysExpired → budget ≤ p.1) ∧ (p.2.SaysOpen → p.1 < budget) := by
  induction h with
  | nil => exact absurd hp List.not_mem_nil
  | cons hyields _ ih =>
    rcases List.mem_cons.mp hp with rfl | hp
    · exact ⟨hyields.le, hyields.tells⟩
    · obtain ⟨hle, htells⟩ := ih hp
      exact ⟨hyields.le.trans hle, htells⟩

/-- A deadline that has expired stays expired. -/
lemma Session.pairwise (h : Session budget time steps outcomes) :
    outcomes.Pairwise fun p q => p.1 ≤ q.1 ∧ (p.2.SaysExpired → ¬ q.2.SaysOpen) := by
  induction h with
  | nil => exact .nil
  | cons hyields hrest ih =>
    refine .cons (fun q hq => ?_) ih
    obtain ⟨hle, -, hopen⟩ := hrest.mem hq
    refine ⟨hle, fun hexpired hsays => ?_⟩
    have hbudget := hyields.tells.1 hexpired
    have hearlier := hopen hsays
    omega

/-- A call whose value passes the check right after it was over before the budget was used up. -/
lemma Session.lt_of_passed (h : Session budget time steps outcomes) {i : ℕ} {a : α}
    (hran : outcomes[i]? = some (time', .ran (.ok a))) {later : ℕ}
    (hpassed : outcomes[i + 1]? = some (later, .checked (.ok ()))) : time' < budget := by
  induction h generalizing i with
  | nil => exact absurd hran (by simp)
  | cons _ hrest ih =>
    rcases i with _ | i
    · obtain ⟨rfl, -⟩ := Prod.mk.inj (Option.some.inj hran)
      rcases hrest with _ | ⟨hyields, -⟩
      · exact absurd hpassed (by simp)
      · obtain ⟨rfl, rfl⟩ := Prod.mk.inj (Option.some.inj hpassed)
        exact hyields.le.trans_lt (hyields.tells.2 rfl)
    · exact ih hran hpassed

/-- The machine on the clock answers what comes of the steps, if the clock can show all of it. -/
lemma play?_of_session (hnow : instantOf (start + time) < clockEnd)
    (hlimit : instantOf (start + budget) < clockEnd) (h : Session budget time steps outcomes) :
    (between start (start + budget)).play? (instantOf (start + time)) steps =
      if ∀ p ∈ outcomes, instantOf (start + p.1) < clockEnd then
        some (outcomes.map fun p => (instantOf (start + p.1), p.2))
      else none := by
  induction h with
  | nil => simp [play?]
  | @cons time time' s answer steps outcomes hyields hrest ih =>
    rw [play?, step?_of_yields hnow hlimit hyields]
    by_cases hshown : instantOf (start + time') < clockEnd
    · rw [if_pos hshown]
      simp only [Option.bind_eq_bind, Option.bind_some, ih hshown, List.forall_mem_cons, hshown,
        true_and]
      split
      · rfl
      · rfl
    · have hpast : ¬ ∀ p ∈ (time', answer) :: outcomes, instantOf (start + p.1) < clockEnd :=
        fun hall => hshown (hall (time', answer) List.mem_cons_self)
      rw [if_neg hshown, if_neg hpast]
      rfl

/-- Whatever is done with a deadline, in any order and however often, what comes of it is told by the
budget and the time since the start, and the machine answers it as long as the clock goes. No step gives
any time back, and a call whose value passes the check right after it was over before the budget was used
up. -/
theorem settled_of_started {d : Deadline}
    (hstart : start? (instantOf start) (.ofMillis budget) = some d)
    (hwhole : ∀ s ∈ steps, s.IsWhole) :
    ∃ outcomes : List (ℕ × Answer α), Session budget 0 steps outcomes ∧
      d.play? (instantOf start) steps =
        (if ∀ p ∈ outcomes, instantOf (start + p.1) < clockEnd then
          some (outcomes.map fun p => (instantOf (start + p.1), p.2))
        else none) ∧
      outcomes.Pairwise (fun p q => p.1 ≤ q.1 ∧ (p.2.SaysExpired → ¬ q.2.SaysOpen)) ∧
      ∀ i time later a, outcomes[i]? = some (time, .ran (.ok a)) →
        outcomes[i + 1]? = some (later, .checked (.ok ())) → time < budget := by
  have hlimit : instantOf (start + budget) < clockEnd := by
    unfold start? at hstart
    split at hstart
    · next h => rwa [nanos_ofMillis, ← instantOf_add] at h
    · cases hstart
  have hnow : instantOf (start + 0) < clockEnd :=
    instantOf_lt_of_le (Nat.add_le_add_left (Nat.zero_le budget) start) hlimit
  obtain rfl := eq_between_of_start? hstart
  obtain ⟨outcomes, hsession⟩ := exists_session budget 0 hwhole
  have hplay := play?_of_session hnow hlimit hsession
  rw [Nat.add_zero] at hplay
  exact ⟨outcomes, hsession, hplay, hsession.pairwise,
    fun _ _ _ _ hran hpassed => hsession.lt_of_passed hran hpassed⟩

/-- A call that answers in the last millisecond of a deadline of twenty, a check, a call that answers at
once, and one that never does. -/
def lastMinute : List (Step ℕ) :=
  [.advance (.ofMillis 19), .run ⟨some 1, .ok 7⟩, .check, .run ⟨some 0, .ok 8⟩, .run ⟨none, .ok 9⟩,
    .expired]

theorem settled_of_lastMinute :
    start? (instantOf 3) (.ofMillis 20) = some (between 3 23) ∧ (∀ s ∈ lastMinute, s.IsWhole) ∧
      ∃ outcomes, Session 20 0 lastMinute outcomes ∧
        (between 3 23).play? (instantOf 3) lastMinute =
          (if ∀ p ∈ outcomes, instantOf (3 + p.1) < clockEnd then
            some (outcomes.map fun p => (instantOf (3 + p.1), p.2))
          else none) ∧
        outcomes.Pairwise (fun p q => p.1 ≤ q.1 ∧ (p.2.SaysExpired → ¬ q.2.SaysOpen)) ∧
        ∀ i time later a, outcomes[i]? = some (time, .ran (.ok a)) →
          outcomes[i + 1]? = some (later, .checked (.ok ())) → time < 20 := by
  have hstart : start? (instantOf 3) (.ofMillis 20) = some (between 3 23) := by decide
  have hwhole : ∀ s ∈ lastMinute, s.IsWhole := by
    simp [lastMinute, Step.IsWhole]
  exact ⟨hstart, hwhole, settled_of_started hstart hwhole⟩

end Steps

end Gateway.Deadline
