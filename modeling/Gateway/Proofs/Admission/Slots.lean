import Mathlib
import Gateway.Admission

/-!
# Where the slots are

A slot is free, handed over or held, and a party that has asked is in one place: it holds a slot, has
been handed one, or waits. `Admission.Valid` says this together with the rule that nobody waits while
a slot is free. Every operation keeps it, and this file says for each of them what becomes of the
party concerned and that all others stay where they are (`Admission.Standing`): a slot that is passed
on moves its new owner from one end of the queue to the other, but not out of it.
-/

namespace Gateway.Admission

variable {α : Type}

/-- How a party stands towards the slots. -/
inductive Standing where
  /-- It has not asked, or it has left. -/
  | out
  /-- It has asked and does not hold a slot yet, though one may have been handed to it. -/
  | waits
  /-- It holds a slot. -/
  | holds
deriving DecidableEq

/-- The parties that have asked and not left, by place. -/
def parties (a : Admission α) : List α := a.holders ++ a.handed ++ a.waiting

/-- How a party stands. -/
def standing [DecidableEq α] (a : Admission α) (p : α) : Standing :=
  if p ∈ a.holders then .holds
  else if p ∈ a.handed ∨ p ∈ a.waiting then .waits
  else .out

/-- The slots are accounted for: none is lost or doubled, none is free while somebody waits, and no
party is in two places. -/
structure Valid (a : Admission α) : Prop where
  sum : a.free + a.holders.length + a.handed.length = a.capacity
  nobody_waits : 0 < a.free → a.waiting = []
  nodup : a.parties.Nodup

lemma valid_new (capacity : Nat) : (new capacity : Admission α).Valid :=
  ⟨rfl, fun _ => rfl, List.nodup_nil⟩

namespace Valid

variable {a : Admission α} {p q : α}

/-- A holder is in no other place. -/
lemma not_mem_of_holds (ha : a.Valid) (hp : p ∈ a.holders) : p ∉ a.handed ∧ p ∉ a.waiting := by
  have hn := ha.nodup
  simp only [parties, List.nodup_append, List.mem_append] at hn
  exact ⟨fun h => hn.1.2.2 p hp p h rfl, fun h => hn.2.2 p (Or.inl hp) p h rfl⟩

/-- A party to which a slot has been handed is in no other place. -/
lemma not_mem_of_handed (ha : a.Valid) (hp : p ∈ a.handed) : p ∉ a.holders ∧ p ∉ a.waiting := by
  have hn := ha.nodup
  simp only [parties, List.nodup_append, List.mem_append] at hn
  exact ⟨fun h => hn.1.2.2 p h p hp rfl, fun h => hn.2.2 p (Or.inr hp) p h rfl⟩

/-- A party that waits is in no other place. -/
lemma not_mem_of_waits (ha : a.Valid) (hp : p ∈ a.waiting) : p ∉ a.holders ∧ p ∉ a.handed := by
  constructor
  · exact fun hholds => (ha.not_mem_of_holds hholds).2 hp
  · exact fun hhanded => (ha.not_mem_of_handed hhanded).2 hp

lemma nodup_holders (ha : a.Valid) : a.holders.Nodup :=
  (List.nodup_append.mp (List.nodup_append.mp ha.nodup).1).1

lemma nodup_handed (ha : a.Valid) : a.handed.Nodup :=
  (List.nodup_append.mp (List.nodup_append.mp ha.nodup).1).2.1

lemma nodup_waiting (ha : a.Valid) : a.waiting.Nodup :=
  (List.nodup_append.mp ha.nodup).2.1

/-- The slots in use are the held ones and those handed over. -/
lemma inUse_eq (ha : a.Valid) : a.inUse = a.holders.length + a.handed.length := by
  have hsum := ha.sum
  unfold inUse
  omega

end Valid

/-! ## A slot becomes free

It goes to the first in line, or it is free when there is no line; nothing else changes. -/

@[simp] lemma release_capacity (a : Admission α) : a.release.capacity = a.capacity := by
  unfold release
  split <;> rfl

@[simp] lemma release_holders (a : Admission α) : a.release.holders = a.holders := by
  unfold release
  split <;> rfl

@[simp] lemma release_handed (a : Admission α) :
    a.release.handed = a.handed ++ a.waiting.take 1 := by
  unfold release
  split <;> simp_all

@[simp] lemma release_waiting (a : Admission α) : a.release.waiting = a.waiting.drop 1 := by
  unfold release
  split <;> simp_all

@[simp] lemma release_free (a : Admission α) :
    a.release.free = a.free + (1 - a.waiting.length) := by
  unfold release
  split <;> simp_all

/-- The parties stay the same, in the same order, when a slot is passed on. -/
@[simp] lemma release_parties (a : Admission α) : a.release.parties = a.parties := by
  simp only [parties, release_holders, release_handed, release_waiting, List.append_assoc,
    List.take_append_drop]

/-- If all slots but one are accounted for, then all are once that one is passed on. -/
lemma valid_release {a : Admission α}
    (hsum : a.free + a.holders.length + a.handed.length + 1 = a.capacity)
    (hwait : 0 < a.free → a.waiting = []) (hnodup : a.parties.Nodup) : a.release.Valid where
  sum := by
    simp only [release_free, release_holders, release_handed, release_capacity, List.length_append,
      List.length_take]
    omega
  nobody_waits h := by
    rw [release_waiting]
    rcases Nat.eq_zero_or_pos a.free with hfree | hfree
    · rw [release_free] at h
      exact List.drop_eq_nil_of_le (by omega)
    · rw [hwait hfree, List.drop_nil]
  nodup := by rwa [release_parties]

/-! ## Standing -/

variable [DecidableEq α]

/-- A party holds a slot exactly when it is among the holders. -/
lemma standing_eq_holds {a : Admission α} {p : α} : a.standing p = .holds ↔ p ∈ a.holders := by
  unfold standing
  split_ifs <;> simp_all

/-- A party is out exactly when it is in no place. -/
lemma standing_eq_out {a : Admission α} {p : α} : a.standing p = .out ↔ p ∉ a.parties := by
  unfold standing parties
  split_ifs <;> simp_all

/-- A party waits exactly when it does not hold a slot but is in one of the other places. -/
lemma standing_eq_waits {a : Admission α} {p : α} :
    a.standing p = .waits ↔ p ∉ a.holders ∧ (p ∈ a.handed ∨ p ∈ a.waiting) := by
  unfold standing
  split_ifs <;> simp_all

/-- The standing only depends on which of the places a party is in. -/
lemma standing_congr {a b : Admission α} {p : α} (hholds : p ∈ a.holders ↔ p ∈ b.holders)
    (hwaits : p ∈ a.handed ∨ p ∈ a.waiting ↔ p ∈ b.handed ∨ p ∈ b.waiting) :
    a.standing p = b.standing p := by
  unfold standing
  simp only [hholds, hwaits]

/-- A party that is known is not out. -/
lemma knows_iff {a : Admission α} {p : α} : a.knows p = true ↔ a.standing p ≠ .out := by
  rw [Ne, standing_eq_out, not_not]
  simp [knows, parties, or_assoc]

@[simp] lemma standing_new (capacity : Nat) (p : α) : (new capacity).standing p = .out := rfl

/-- Nobody's standing changes when a slot is passed on. -/
@[simp] lemma release_standing (a : Admission α) (p : α) : a.release.standing p = a.standing p := by
  apply standing_congr
  · rw [release_holders]
  · rw [release_handed, release_waiting, List.mem_append, or_assoc, ← List.mem_append,
      List.take_append_drop]

/-! ## A party asks -/

section Arrive

variable {a : Admission α} {p q : α}

omit [DecidableEq α] in
@[simp] lemma arrive_capacity (a : Admission α) (p : α) : (a.arrive p).capacity = a.capacity := by
  unfold arrive
  split <;> rfl

/-- A new party keeps the slots accounted for. -/
lemma Valid.arrive (ha : a.Valid) (hp : a.standing p = .out) : (a.arrive p).Valid := by
  have hout := standing_eq_out.mp hp
  have hsum := ha.sum
  have hperm : (a.arrive p).parties.Perm (p :: a.parties) := by
    unfold Admission.arrive parties
    split
    · simp only [List.append_assoc, List.singleton_append]
      exact List.perm_middle
    · simp only [← List.append_assoc]
      exact List.perm_append_singleton p _
  refine ⟨?_, ?_, hperm.nodup_iff.mpr (List.nodup_cons.mpr ⟨hout, ha.nodup⟩)⟩
  · unfold Admission.arrive
    split <;> simp <;> omega
  · unfold Admission.arrive
    split
    · exact fun _ => ha.nobody_waits ‹_›
    · exact fun h => absurd h ‹_›

/-- A new party holds a slot at once if one is free and waits otherwise. -/
lemma arrive_standing_self (hp : a.standing p = .out) :
    (a.arrive p).standing p = if 0 < a.free then .holds else .waits := by
  have hout := standing_eq_out.mp hp
  simp only [parties, List.mem_append, not_or] at hout
  unfold arrive
  split <;> simp [standing, hout]

/-- All others stand as before when a party asks. -/
lemma arrive_standing_of_ne (hq : q ≠ p) : (a.arrive p).standing q = a.standing q := by
  unfold arrive
  split <;> simp [standing, hq]

end Arrive

/-! ## A party resumes -/

section Resume

variable {a : Admission α} {p q : α}

@[simp] lemma resume_capacity (a : Admission α) (p : α) : (a.resume p).capacity = a.capacity := by
  unfold resume
  split <;> rfl

/-- Resuming keeps the slots accounted for. -/
lemma Valid.resume (ha : a.Valid) (p : α) : (a.resume p).Valid := by
  unfold Admission.resume
  split
  case isFalse => exact ha
  case isTrue hp =>
    have hlen : (a.handed.erase p).length + 1 = a.handed.length := by
      rw [List.length_erase_of_mem hp]
      have := List.length_pos_of_mem hp
      omega
    have hperm : (a.holders ++ [p] ++ a.handed.erase p ++ a.waiting).Perm a.parties := by
      refine List.Perm.append_right _ ?_
      rw [List.append_assoc]
      exact List.Perm.append_left _ (List.perm_cons_erase hp).symm
    have hsum := ha.sum
    refine ⟨?_, ha.nobody_waits, hperm.nodup_iff.mpr ha.nodup⟩
    simp only [List.length_append, List.length_singleton]
    omega

/-- A party to which a slot has been handed holds it once it has resumed. -/
lemma resume_standing_self (hp : p ∈ a.handed) : (a.resume p).standing p = .holds := by
  simp [resume, standing, hp]

/-- All others stand as before when a party resumes. -/
lemma resume_standing_of_ne (hq : q ≠ p) : (a.resume p).standing q = a.standing q := by
  unfold resume
  split
  · simp [standing, hq, List.mem_erase_of_ne hq]
  · rfl

end Resume

/-! ## A party leaves -/

section Leave

variable {a : Admission α} {p q : α}

@[simp] lemma leave_capacity (a : Admission α) (p : α) : (a.leave p).capacity = a.capacity := by
  unfold leave
  split_ifs <;> simp

/-- A party that holds a slot passes it on when it leaves. -/
lemma leave_of_holds (hp : p ∈ a.holders) :
    a.leave p = release { a with holders := a.holders.erase p } := by
  simp [leave, hp]

/-- A party to which a slot has been handed passes it on when it leaves. -/
lemma Valid.leave_of_handed (ha : a.Valid) (hp : p ∈ a.handed) :
    a.leave p = release { a with handed := a.handed.erase p } := by
  simp [leave, hp, (ha.not_mem_of_handed hp).1]

/-- A party that has a slot or has been handed one passes it on when it leaves. -/
lemma Valid.leave_of_slot (ha : a.Valid) (hp : p ∈ a.holders ∨ p ∈ a.handed) :
    a.leave p = release { a with holders := a.holders.erase p, handed := a.handed.erase p } := by
  by_cases hholds : p ∈ a.holders
  · rw [leave_of_holds hholds, List.erase_of_not_mem (ha.not_mem_of_holds hholds).1]
  · rw [ha.leave_of_handed (hp.resolve_left hholds), List.erase_of_not_mem hholds]

/-- A party without a slot only gives up its place in the line. -/
lemma leave_of_no_slot (hholds : p ∉ a.holders) (hhanded : p ∉ a.handed) :
    a.leave p = { a with waiting := a.waiting.erase p } := by
  simp [leave, hholds, hhanded]

/-- Leaving keeps the slots accounted for. -/
lemma Valid.leave (ha : a.Valid) (p : α) : (a.leave p).Valid := by
  have hsum := ha.sum
  by_cases hholds : p ∈ a.holders
  · rw [leave_of_holds hholds]
    have hlen := List.length_erase_of_mem hholds
    have hpos := List.length_pos_of_mem hholds
    refine valid_release (by simp only; omega) ha.nobody_waits ?_
    exact ha.nodup.sublist ((List.erase_sublist.append_right _).append_right _)
  · by_cases hhanded : p ∈ a.handed
    · rw [ha.leave_of_handed hhanded]
      have hlen := List.length_erase_of_mem hhanded
      have hpos := List.length_pos_of_mem hhanded
      refine valid_release (by simp only; omega) ha.nobody_waits ?_
      exact ha.nodup.sublist ((List.erase_sublist.append_left _).append_right _)
    · rw [leave_of_no_slot hholds hhanded]
      refine ⟨hsum, fun h => by simp [ha.nobody_waits h], ?_⟩
      exact ha.nodup.sublist (List.erase_sublist.append_left _)

/-- A party that has left is out. -/
lemma Valid.leave_standing_self (ha : a.Valid) : (a.leave p).standing p = .out := by
  by_cases hholds : p ∈ a.holders
  · have hother := ha.not_mem_of_holds hholds
    rw [leave_of_holds hholds, release_standing]
    simp [standing, hother, ha.nodup_holders.not_mem_erase]
  · by_cases hhanded : p ∈ a.handed
    · have hother := ha.not_mem_of_handed hhanded
      rw [ha.leave_of_handed hhanded, release_standing]
      simp [standing, hother, ha.nodup_handed.not_mem_erase]
    · rw [leave_of_no_slot hholds hhanded]
      simp [standing, hholds, hhanded, ha.nodup_waiting.not_mem_erase]

/-- All others stand as before when a party leaves. -/
lemma leave_standing_of_ne (hq : q ≠ p) : (a.leave p).standing q = a.standing q := by
  unfold leave
  split_ifs
  · rw [release_standing]
    simp [standing, List.mem_erase_of_ne hq]
  · rw [release_standing]
    simp [standing, List.mem_erase_of_ne hq]
  · simp [standing, List.mem_erase_of_ne hq]

end Leave

end Gateway.Admission
