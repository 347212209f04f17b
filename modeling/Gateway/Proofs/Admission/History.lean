import Mathlib
import Gateway.Proofs.Admission.Slots

/-!
# Histories of admission

A pool of slots is used by parties that ask, look whether they have been handed a slot, and drop what
they have, in any order. `Admission.History` records the steps with their answers and what was
published about the slots in use, and `Admission.Reached` says which states a history leads to.

From a history alone one can read off who holds a permit (`History.permits`) and in which order the
parties that have not dropped out asked (`History.line`). The main result `fair_of_reached` ties the
state to the history: slots are conserved, none is free while somebody waits, and they are assigned
in the order of the line. The proof follows the line. It always splits into the parties that have
been assigned a slot and, after them, those that wait, and a slot that is passed on moves the border
between the two by one place.
-/

namespace Gateway.Admission

open scoped List

variable {α : Type} [DecidableEq α]

/-! ## Steps -/

/-- What a step does: the state after it, what comes of it, and what is published. -/
inductive Takes (a : Admission α) : Step α → Admission α → Answer → Option Nat → Prop
  /-- A party asks and gets a free slot. -/
  | grant {p : α} (hp : a.standing p = .out) (hfree : 0 < a.free) :
      Takes a (.acquire p) (a.arrive p) .granted (some (a.arrive p).inUse)
  /-- A party asks and has to wait. -/
  | queue {p : α} (hp : a.standing p = .out) (hfree : a.free = 0) :
      Takes a (.acquire p) (a.arrive p) .waiting none
  /-- A party that holds a slot looks again. -/
  | again {p : α} (hp : p ∈ a.holders) : Takes a (.poll p) a .granted none
  /-- A party looks and finds that a slot has been handed to it. -/
  | resume {p : α} (hp : p ∈ a.handed) (hholds : p ∉ a.holders) :
      Takes a (.poll p) (a.resume p) .granted (some (a.resume p).inUse)
  /-- A party looks and finds that it still has to wait. -/
  | wait {p : α} (hp : p ∈ a.waiting) : Takes a (.poll p) a .waiting none
  /-- A permit is dropped. -/
  | release {p : α} (hp : p ∈ a.holders) :
      Takes a (.drop p) (a.leave p) .released (some (a.inUse - 1))
  /-- A party that has no permit yet drops out. -/
  | cancel {p : α} (hholds : p ∉ a.holders) (hp : p ∈ a.handed ∨ p ∈ a.waiting) :
      Takes a (.drop p) (a.leave p) .cancelled none

/-- A step that is possible does one of the things that steps do. -/
lemma takes_of_step? {a b : Admission α} {s : Step α} {answer : Answer} {gauge : Option Nat}
    (h : a.step? s = some (b, answer, gauge)) : Takes a s b answer gauge := by
  cases s with
  | acquire p =>
    by_cases hknows : a.knows p = true
    · simp [step?, hknows] at h
    · have hout : a.standing p = .out := by
        by_contra hne
        exact hknows (knows_iff.mpr hne)
      have hself := arrive_standing_self hout
      rcases Nat.eq_zero_or_pos a.free with hfree | hfree
      · have hnot : p ∉ (a.arrive p).holders := by
          rw [← standing_eq_holds, hself]
          simp [hfree]
        simp only [step?, hknows, hnot, if_false, Option.some.injEq, Prod.mk.injEq,
          Bool.false_eq_true] at h
        obtain ⟨rfl, rfl, rfl⟩ := h
        exact .queue hout hfree
      · have hholds : p ∈ (a.arrive p).holders := by
          rw [← standing_eq_holds, hself]
          simp [hfree]
        simp only [step?, hknows, hholds, if_true, if_false, Option.some.injEq, Prod.mk.injEq,
          Bool.false_eq_true] at h
        obtain ⟨rfl, rfl, rfl⟩ := h
        exact .grant hout hfree
  | poll p =>
    simp only [step?] at h
    split_ifs at h with hholds hhanded hwaiting <;>
      simp only [Option.some.injEq, Prod.mk.injEq] at h <;> obtain ⟨rfl, rfl, rfl⟩ := h
    · exact .again hholds
    · exact .resume hhanded hholds
    · exact .wait hwaiting
  | drop p =>
    simp only [step?] at h
    split_ifs at h with hholds hknows <;>
      simp only [Option.some.injEq, Prod.mk.injEq] at h <;> obtain ⟨rfl, rfl, rfl⟩ := h
    · exact .release hholds
    · refine .cancel hholds ?_
      simpa [knows, hholds] using hknows

/-- Every step keeps the slots accounted for. -/
lemma Takes.valid {a b : Admission α} {s : Step α} {answer : Answer} {gauge : Option Nat}
    (h : Takes a s b answer gauge) (ha : a.Valid) : b.Valid := by
  cases h with
  | grant hp | queue hp => exact ha.arrive hp
  | again | wait => exact ha
  | resume => exact ha.resume _
  | release | cancel => exact ha.leave _

/-- No step changes the capacity. -/
lemma Takes.capacity {a b : Admission α} {s : Step α} {answer : Answer} {gauge : Option Nat}
    (h : Takes a s b answer gauge) : b.capacity = a.capacity := by
  cases h <;> simp

/-! ## Histories -/

/-- The steps so far, the latest last, each with what came of it and what was published. -/
abbrev History (α : Type) := List (Step α × Answer × Option Nat)

/-- The states to which histories lead from a fresh pool. -/
inductive Reached (capacity : Nat) : History α → Admission α → Prop
  | start : Reached capacity [] (new capacity)
  | step {h : History α} {a b : Admission α} {s : Step α} {answer : Answer} {gauge : Option Nat}
      (hreach : Reached capacity h a) (hstep : a.step? s = some (b, answer, gauge)) :
      Reached capacity (h ++ [(s, answer, gauge)]) b

namespace History

/-- The line after one more step: a party joins it at the end when it asks. -/
def joinLine (line : List α) : Step α × Answer × Option Nat → List α
  | (.acquire p, _) => line ++ [p]
  | (.poll _, _) => line
  | (.drop p, _) => line.erase p

/-- The parties that have asked and not dropped out, in the order in which they asked. -/
def line (h : History α) : List α := h.foldl joinLine []

/-- The permits after one more step. -/
def countPermit (permits : List α) : Step α × Answer × Option Nat → List α
  | (.acquire p, .granted, _) => permits ++ [p]
  | (.poll p, .granted, _) => if p ∈ permits then permits else permits ++ [p]
  | (.drop p, _) => permits.erase p
  | _ => permits

/-- The permits that have been granted and not dropped. -/
def permits (h : History α) : List α := h.foldl countPermit []

@[simp] lemma line_concat (h : History α) (e : Step α × Answer × Option Nat) :
    line (h ++ [e]) = joinLine h.line e := by
  simp [line]

@[simp] lemma permits_concat (h : History α) (e : Step α × Answer × Option Nat) :
    permits (h ++ [e]) = countPermit h.permits e := by
  simp [permits]

end History

variable {capacity : Nat} {h : History α} {a : Admission α}

/-- In every state that is reached the slots are accounted for. -/
lemma valid_of_reached (hreach : Reached capacity h a) : a.Valid := by
  induction hreach with
  | start => exact valid_new capacity
  | step _ hstep ih => exact (takes_of_step? hstep).valid ih

/-- The capacity never changes. -/
lemma capacity_of_reached (hreach : Reached capacity h a) : a.capacity = capacity := by
  induction hreach with
  | start => rfl
  | step _ hstep ih =>
    rw [(takes_of_step? hstep).capacity, ih]

/-- Those hold a slot who were told so and have not dropped it. -/
lemma permits_of_reached (hreach : Reached capacity h a) : h.permits = a.holders := by
  induction hreach with
  | start => rfl
  | @step h a b s answer gauge hreach hstep ih =>
    have ha := valid_of_reached hreach
    rw [History.permits_concat, ih]
    cases takes_of_step? hstep with
    | grant hp hfree => simp [History.countPermit, arrive, hfree]
    | queue hp hfree => simp [History.countPermit, arrive, hfree]
    | again hp => simp [History.countPermit, hp]
    | resume hp hholds => simp [History.countPermit, Admission.resume, hp, hholds]
    | wait hp => rfl
    | release hp => simp [History.countPermit, leave_of_holds hp]
    | @cancel p hholds hp =>
      have hleave : (a.leave p).holders = a.holders := by
        unfold leave
        split_ifs <;> simp
      rw [hleave]
      exact List.erase_of_not_mem hholds

/-- A party that leaves is taken out of the slots; if it had one, the first that waits comes in. -/
lemma Valid.leave_served (ha : a.Valid) {p : α} {served : List α}
    (hperm : served.Perm (a.holders ++ a.handed)) :
    ∃ rest, rest.Perm ((a.leave p).holders ++ (a.leave p).handed) ∧
      (served ++ a.waiting).erase p = rest ++ (a.leave p).waiting := by
  have hmem : p ∈ served ↔ p ∈ a.holders ∨ p ∈ a.handed := by
    rw [hperm.mem_iff, List.mem_append]
  by_cases hslot : p ∈ a.holders ∨ p ∈ a.handed
  · refine ⟨served.erase p ++ a.waiting.take 1, ?_, ?_⟩
    · have herase : (a.leave p).holders ++ (a.leave p).handed =
          (a.holders ++ a.handed).erase p ++ a.waiting.take 1 := by
        by_cases hholds : p ∈ a.holders
        · rw [leave_of_holds hholds, List.erase_append_left _ hholds]
          simp
        · have hhanded := hslot.resolve_left hholds
          rw [ha.leave_of_handed hhanded, List.erase_append_right _ hholds]
          simp
      rw [herase]
      exact (hperm.erase p).append_right _
    · have hwaiting : (a.leave p).waiting = a.waiting.drop 1 := by
        by_cases hholds : p ∈ a.holders
        · rw [leave_of_holds hholds, release_waiting]
        · rw [ha.leave_of_handed (hslot.resolve_left hholds), release_waiting]
      rw [List.erase_append_left _ (hmem.mpr hslot), hwaiting, List.append_assoc,
        List.take_append_drop]
  · obtain ⟨hholds, hhanded⟩ := not_or.mp hslot
    refine ⟨served, ?_, ?_⟩
    · simpa [leave_of_no_slot hholds hhanded] using hperm
    · rw [List.erase_append_right _ (fun hp => hslot (hmem.mp hp)),
        leave_of_no_slot hholds hhanded]

/-- The line consists of the parties that have been assigned a slot and, after them, of those that
wait. -/
lemma line_of_reached (hreach : Reached capacity h a) :
    ∃ served, served.Perm (a.holders ++ a.handed) ∧ h.line = served ++ a.waiting := by
  induction hreach with
  | start => exact ⟨[], List.Perm.refl _, rfl⟩
  | @step h a b s answer gauge hreach hstep ih =>
    obtain ⟨served, hperm, hline⟩ := ih
    have ha := valid_of_reached hreach
    rw [History.line_concat, hline]
    cases takes_of_step? hstep with
    | @grant p hp hfree =>
      -- nobody waits, so that the end of the line is the end of the part that has been served
      refine ⟨served ++ [p], ?_, ?_⟩
      · simp only [arrive, hfree, if_true]
        calc served ++ [p]
          _ ~ a.holders ++ a.handed ++ [p] := hperm.append_right [p]
          _ ~ [p] ++ (a.holders ++ a.handed) := List.perm_append_comm
          _ = [p] ++ a.holders ++ a.handed := (List.append_assoc _ _ _).symm
          _ ~ a.holders ++ [p] ++ a.handed := List.perm_append_comm.append_right _
      · simp [History.joinLine, arrive, hfree, ha.nobody_waits hfree]
    | @queue p hp hfree =>
      refine ⟨served, ?_, ?_⟩
      · simpa [arrive, hfree] using hperm
      · simp [History.joinLine, arrive, hfree]
    | again hp => exact ⟨served, hperm, rfl⟩
    | @resume p hp hholds =>
      refine ⟨served, ?_, ?_⟩
      · simp only [Admission.resume, hp, if_true]
        refine hperm.trans ?_
        rw [List.append_assoc]
        exact (List.perm_cons_erase hp).append_left _
      · simp [History.joinLine, Admission.resume, hp]
    | wait hp => exact ⟨served, hperm, rfl⟩
    | release hp => exact ha.leave_served hperm
    | cancel hholds hp => exact ha.leave_served hperm

/-! ## Fairness -/

/-- What a pool of slots promises in a state `a` to which a history `h` has led. -/
structure Fair (capacity : Nat) (h : History α) (a : Admission α) : Prop where
  /-- Every slot is available, granted, or handed to a party that has not resumed. -/
  conserved : a.free + h.permits.length + a.handed.length = capacity
  /-- The number in use and the number available make up the capacity, so that the former never
  falls short of what the subtraction in it would give. -/
  inUse_add_free : a.inUse + a.free = capacity
  /-- No wake-up is lost: nobody waits without a slot while one is available. -/
  nobody_waits : 0 < a.free → a.waiting = []
  /-- Slots are assigned in the order in which the parties asked: of those that have not dropped out,
  the ones with a slot come first and the ones that wait come after them, in this order. -/
  in_order : ∃ served, served.Perm (h.permits ++ a.handed) ∧ h.line = served ++ a.waiting
  /-- A party that has a slot or has been handed one passes it on when it drops out: to the one that
  has waited longest, or to nobody if nobody waits. -/
  passes_on : ∀ p ∈ h.permits ++ a.handed, ∃ answer gauge, a.step? (.drop p) = some
    ({ a with
        free := a.free + (1 - a.waiting.length)
        holders := a.holders.erase p
        handed := a.handed.erase p ++ a.waiting.take 1
        waiting := a.waiting.drop 1 }, answer, gauge)
  /-- A party that waits only leaves its place in the line when it drops out. -/
  steps_aside : ∀ p ∈ a.waiting,
    a.step? (.drop p) = some ({ a with waiting := a.waiting.erase p }, .cancelled, none)

/-- Whatever the parties do and in whatever order, the slots are conserved, no wake-up is lost, and
slots are assigned first come, first served. -/
theorem fair_of_reached (hreach : Reached capacity h a) : Fair capacity h a := by
  have ha := valid_of_reached hreach
  have hcapacity := capacity_of_reached hreach
  have hpermits := permits_of_reached hreach
  have hsum := ha.sum
  refine ⟨?_, ?_, ha.nobody_waits, ?_, ?_, ?_⟩
  · rw [hpermits, hsum, hcapacity]
  · unfold inUse
    omega
  · rw [hpermits]
    exact line_of_reached hreach
  · intro p hp
    rw [hpermits, List.mem_append] at hp
    by_cases hholds : p ∈ a.holders
    · refine ⟨.released, some (a.inUse - 1), ?_⟩
      have hhanded := (ha.not_mem_of_holds hholds).1
      have hleave := leave_of_holds hholds
      simp only [step?, hholds, if_true, hleave, List.erase_of_not_mem hhanded]
      rcases hw : a.waiting with _ | ⟨w, ws⟩ <;> simp [Admission.release]
    · have hhanded := hp.resolve_left hholds
      have hknows : a.knows p = true := by simp [knows, hhanded]
      refine ⟨.cancelled, none, ?_⟩
      simp only [step?, hholds, if_false, hknows, if_true, ha.leave_of_handed hhanded,
        List.erase_of_not_mem hholds]
      rcases hw : a.waiting with _ | ⟨w, ws⟩ <;> simp [Admission.release]
  · intro p hp
    have hknows : a.knows p = true := by simp [knows, hp]
    have hholds : p ∉ a.holders := fun hmem => (ha.not_mem_of_holds hmem).2 hp
    have hhanded : p ∉ a.handed := fun hmem => (ha.not_mem_of_handed hmem).2 hp
    simp only [step?, hholds, if_false, hknows, if_true, leave_of_no_slot hholds hhanded]

/-- One slot, and a party that drops out after the slot has been handed to it: the party that asked
after it is handed the slot, and everything is as it should be. -/
theorem fair_after_unused_handover :
    let h : History Nat := [(.acquire 0, .granted, some 1), (.acquire 1, .waiting, none),
      (.acquire 2, .waiting, none), (.drop 0, .released, some 0), (.drop 1, .cancelled, none)]
    Reached 1 h ⟨1, 0, [], [2], []⟩ ∧ Fair 1 h ⟨1, 0, [], [2], []⟩ := by
  have h₁ : Reached 1 [(.acquire 0, .granted, some 1)] (⟨1, 0, [], [], [0]⟩ : Admission Nat) :=
    .step (h := []) .start rfl
  have h₂ := h₁.step (s := .acquire 1) rfl
  have h₃ := h₂.step (s := .acquire 2) rfl
  have h₄ := h₃.step (s := .drop 0) rfl
  have h₅ := h₄.step (s := .drop 1) rfl
  exact ⟨h₅, fair_of_reached h₅⟩

end Gateway.Admission
