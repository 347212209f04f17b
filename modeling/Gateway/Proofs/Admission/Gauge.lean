import Mathlib
import Gateway.Proofs.Admission.History

/-!
# The published number of slots

The number of slots in use is published when a permit is granted and when one is dropped, but not when a
party drops out to which a slot has been handed. Such a party gives the slot back all the same, so that
the number that was published last can be too high, for as long as nobody is granted a permit or drops
one (`exists_gauge_ne_inUse`).

This is the only way in which it goes wrong. When no slot is on its way to a party, the published number
is not too low, and it is too high by at most the number of parties that have dropped out without a
permit since it was published (`gauge_of_reached`). In particular it is exact if there are none.

It is too low by one while a dropped permit is on its way to the next in line, which the invariant
(`lag_of_reached`) has to allow for.
-/

namespace Gateway.Admission

variable {α : Type}

/-! ## Reading the history -/

namespace History

/-- The published number after one more step. -/
def publish (n : Nat) : Step α × Answer × Option Nat → Nat
  | (_, _, some m) => m
  | (_, _, none) => n

/-- The number of slots in use that was published last. If none was, it counts as zero. -/
def gauge (h : History α) : Nat := h.foldl publish 0

/-- The number of silent departures after one more step: publishing makes up for them. -/
def countSilent (n : Nat) : Step α × Answer × Option Nat → Nat
  | (_, _, some _) => 0
  | (_, .cancelled, none) => n + 1
  | (_, _, none) => n

/-- How many parties have dropped out without a permit since the last publication. -/
def silent (h : History α) : Nat := h.foldl countSilent 0

@[simp] lemma gauge_concat (h : History α) (e : Step α × Answer × Option Nat) :
    gauge (h ++ [e]) = publish h.gauge e := by
  simp [gauge]

@[simp] lemma silent_concat (h : History α) (e : Step α × Answer × Option Nat) :
    silent (h ++ [e]) = countSilent h.silent e := by
  simp [silent]

end History

/-! ## Slots that are given back -/

variable [DecidableEq α]

/-- If nobody waits, one slot less is in use after a party that has one has left; otherwise just as many
are, and the slot is on its way. -/
lemma Valid.inUse_leave {a : Admission α} (ha : a.Valid) {p : α}
    (hp : p ∈ a.holders ∨ p ∈ a.handed) :
    (a.leave p).inUse + 1 = a.inUse ∨ (a.leave p).inUse = a.inUse ∧ (a.leave p).handed ≠ [] := by
  have hsum := ha.sum
  have hslot : 0 < a.holders.length + a.handed.length := by
    rcases hp with hholds | hhanded
    · have hpos := List.length_pos_of_mem hholds
      omega
    · have hpos := List.length_pos_of_mem hhanded
      omega
  rw [ha.leave_of_slot hp]
  unfold inUse
  rw [release_free, release_capacity, release_handed]
  rcases hwaiting : a.waiting with _ | ⟨w, ws⟩
  · left
    simp only [List.length_nil]
    omega
  · right
    simp

/-! ## The last publication -/

variable {capacity : Nat} {h : History α} {a : Admission α}

/-- The number that was published last is too low by one at most, and only while a slot is on its way; it
is too high by no more than the silent departures. -/
lemma lag_of_reached (hreach : Reached capacity h a) :
    (a.inUse ≤ h.gauge ∨ a.inUse = h.gauge + 1 ∧ a.handed ≠ []) ∧
      h.gauge ≤ a.inUse + h.silent := by
  induction hreach with
  | start => exact ⟨.inl (Nat.sub_self capacity).le, Nat.zero_le _⟩
  | @step h a b s answer gauge hreach hstep ih =>
    have ha := valid_of_reached hreach
    obtain ⟨hlow, hhigh⟩ := ih
    rw [History.gauge_concat, History.silent_concat]
    cases takes_of_step? hstep with
    | grant | resume => exact ⟨.inl le_rfl, le_rfl⟩
    | @queue p hp hfree =>
      have hsame : a.arrive p = { a with waiting := a.waiting ++ [p] } := by simp [arrive, hfree]
      rw [hsame]
      exact ⟨hlow, hhigh⟩
    | again | wait => exact ⟨hlow, hhigh⟩
    | @release p hp =>
      -- the permit is dropped before the slot is passed on
      have hleave := ha.inUse_leave (.inl hp)
      have hpos : 0 < a.inUse := by
        rw [ha.inUse_eq]
        have hlength := List.length_pos_of_mem hp
        omega
      simp only [History.publish, History.countSilent]
      rcases hleave with hfreed | ⟨hsame, hnext⟩
      · exact ⟨.inl (by omega), by omega⟩
      · exact ⟨.inr ⟨by omega, hnext⟩, by omega⟩
    | @cancel p hholds hp =>
      simp only [History.publish, History.countSilent]
      by_cases hhanded : p ∈ a.handed
      · rcases ha.inUse_leave (.inr hhanded) with hfreed | ⟨hsame, hnext⟩
        · constructor
          · left
            rcases hlow with hle | ⟨heq, -⟩ <;> omega
          · omega
        · constructor
          · rw [hsame]
            exact hlow.imp_right fun hlag => ⟨hlag.1, hnext⟩
          · omega
      · rw [leave_of_no_slot hholds hhanded]
        exact ⟨hlow, hhigh.trans (Nat.le_succ _)⟩

/-- When no slot is on its way to a party, the number of slots that was published last is not too low,
and it is too high by no more than the number of parties that have dropped out without a permit since
then. -/
theorem gauge_of_reached (hreach : Reached capacity h a) (hrest : a.handed = []) :
    a.inUse ≤ h.gauge ∧ h.gauge ≤ a.inUse + h.silent := by
  obtain ⟨hlow, hhigh⟩ := lag_of_reached hreach
  constructor
  · rcases hlow with hle | ⟨-, hway⟩
    · exact hle
    · exact absurd hrest hway
  · exact hhigh

/-- Two slots and three parties. The third waits for the first to leave; when the second has left as well,
it drops out with the slot that was handed to it. -/
def unusedHandover : History Nat :=
  [(.acquire 0, .granted, some 1), (.acquire 1, .granted, some 2), (.acquire 2, .waiting, none),
    (.drop 0, .released, some 1), (.drop 1, .released, some 1), (.drop 2, .cancelled, none)]

lemma reached_unusedHandover : Reached 2 unusedHandover (new 2) := by
  have h₁ : Reached 2 [(.acquire 0, .granted, some 1)] (⟨2, 1, [], [], [0]⟩ : Admission Nat) :=
    .step (h := []) .start rfl
  have h₂ := h₁.step (s := .acquire 1) rfl
  have h₃ := h₂.step (s := .acquire 2) rfl
  have h₄ := h₃.step (s := .drop 0) rfl
  have h₅ := h₄.step (s := .drop 1) rfl
  exact h₅.step (s := .drop 2) rfl

/-- After a slot has been handed over in vain no slot is in use, and one is published. -/
theorem exists_gauge_ne_inUse :
    ∃ (h : History Nat) (a : Admission Nat), Reached 2 h a ∧ a.handed = [] ∧ h.gauge ≠ a.inUse :=
  ⟨unusedHandover, new 2, reached_unusedHandover, rfl, by decide⟩

/-- There the published number is as far off as the silent departures allow. -/
theorem gauge_of_unusedHandover :
    (new 2 : Admission Nat).inUse ≤ unusedHandover.gauge ∧
      unusedHandover.gauge ≤ (new 2 : Admission Nat).inUse + unusedHandover.silent ∧
      unusedHandover.gauge = 1 ∧ unusedHandover.silent = 1 := by
  obtain ⟨hlow, hhigh⟩ := gauge_of_reached reached_unusedHandover rfl
  exact ⟨hlow, hhigh, by decide, by decide⟩

end Gateway.Admission
