import Mathlib
import Gateway.Proofs.Admission.Slots

/-!
# Places in the line

A party that waits has others in front of it (`Admission.ahead`). Whatever one of the others does in its
turn (`Admission.Touched`), the party keeps its place in the line, moves up, or is handed a slot; nobody
comes in front of it, and whenever another party gives back a slot, it moves up by one place at least
(`Admission.Touched.line`). A party that has been handed a slot keeps it until it resumes
(`Admission.Touched.handed`).
-/

namespace Gateway.Admission

open scoped List

variable {α : Type} [DecidableEq α]

/-- The parties that wait in front of a party. -/
def ahead (a : Admission α) (p : α) : List α := a.waiting.takeWhile (· ≠ p)

/-- What the slots can be like after one party has done any number of things. -/
inductive Touched (a : Admission α) (q : α) : Admission α → Prop
  | keeps : Touched a q a
  | arrives {b : Admission α} (h : Touched a q b) (hout : b.standing q = .out) :
      Touched a q (b.arrive q)
  | resumes {b : Admission α} (h : Touched a q b) : Touched a q (b.resume q)
  | leaves {b : Admission α} (h : Touched a q b) : Touched a q (b.leave q)

/-! ## The parties in front -/

section Ahead

variable {a : Admission α} {p q : α}

/-- A party that finds all slots taken has the whole line in front of it. -/
lemma ahead_arrive_self (hfree : a.free = 0) (hp : p ∉ a.waiting) :
    (a.arrive p).ahead p = a.waiting := by
  have hne : ∀ x ∈ a.waiting, decide (x ≠ p) = true := by
    intro x hx
    exact decide_eq_true fun heq => hp (heq ▸ hx)
  simp only [ahead, arrive, hfree, lt_irrefl, if_false]
  rw [List.takeWhile_append_of_pos hne, List.takeWhile_cons_of_neg (by simp), List.append_nil]

/-- What comes after a party in a list does not matter for what is in front of it. -/
lemma takeWhile_ne_append {l : List α} (hp : p ∈ l) (l' : List α) :
    (l ++ l').takeWhile (· ≠ p) = l.takeWhile (· ≠ p) := by
  induction l with
  | nil => cases hp
  | cons x l ih =>
    by_cases hx : x = p
    · simp [hx]
    · have hrest : p ∈ l := (List.mem_cons.mp hp).resolve_left (Ne.symm hx)
      have hfront := ih hrest
      simp only [ne_eq, decide_not] at hfront ⊢
      simp [hx, hfront]

/-- Without one of the others in a list at most that one is missing in front of a party. -/
lemma takeWhile_ne_erase (hq : q ≠ p) (l : List α) :
    (l.erase q).takeWhile (· ≠ p) <+ l.takeWhile (· ≠ p) := by
  induction l with
  | nil => exact List.Sublist.refl _
  | cons x l ih =>
    by_cases hx : x = q
    · subst hx
      rw [List.erase_cons_head, List.takeWhile_cons_of_pos (by simpa using hq)]
      exact List.sublist_cons_self _ _
    · rw [List.erase_cons_tail (by simpa using hx)]
      by_cases hp : x = p
      · rw [List.takeWhile_cons_of_neg (by simpa using hp)]
        exact List.nil_sublist _
      · rw [List.takeWhile_cons_of_pos (by simpa using hp),
          List.takeWhile_cons_of_pos (by simpa using hp)]
        exact ih.cons_cons x

omit [DecidableEq α] in
/-- While a party waits, one that arrives joins the line. -/
lemma Valid.arrive_waiting (ha : a.Valid) (hp : p ∈ a.waiting) (q : α) :
    a.arrive q = { a with waiting := a.waiting ++ [q] } := by
  have hfree : ¬ 0 < a.free := by
    intro hfree
    rw [ha.nobody_waits hfree] at hp
    cases hp
  simp only [Admission.arrive, if_neg hfree]

/-- The parties in front of one that waits when another one leaves: nobody new is among them, and if that
one gives back a slot, one fewer is; if there are none, the party itself is handed the slot. -/
lemma Valid.ahead_leave (ha : a.Valid) (hp : p ∈ a.waiting) (hq : q ≠ p) :
    p ∈ (a.leave q).handed ∨ p ∈ (a.leave q).waiting ∧ (a.leave q).ahead p <+ a.ahead p ∧
      (q ∈ a.holders ∨ q ∈ a.handed → ((a.leave q).ahead p).length + 1 = (a.ahead p).length) := by
  by_cases hslot : q ∈ a.holders ∨ q ∈ a.handed
  · unfold ahead
    rw [ha.leave_of_slot hslot, release_handed, release_waiting]
    rcases hwaiting : a.waiting with _ | ⟨w, ws⟩
    · rw [hwaiting] at hp
      cases hp
    · rw [hwaiting] at hp
      rcases List.mem_cons.mp hp with rfl | hrest
      · left
        simp
      · right
        have hne : w ≠ p := by
          rintro rfl
          have hnodup := ha.nodup_waiting
          rw [hwaiting] at hnodup
          exact (List.nodup_cons.mp hnodup).1 hrest
        rw [List.takeWhile_cons_of_pos (by simpa using hne)]
        exact ⟨hrest, List.sublist_cons_self _ _, fun _ => rfl⟩
  · right
    obtain ⟨hholds, hhanded⟩ := not_or.mp hslot
    rw [leave_of_no_slot hholds hhanded]
    exact ⟨(List.mem_erase_of_ne (Ne.symm hq)).mpr hp, takeWhile_ne_erase hq _,
      fun hslot' => absurd hslot' hslot⟩

omit [DecidableEq α] in
/-- A party that has been handed a slot keeps it when another one arrives. -/
lemma handed_arrive (hp : p ∈ a.handed) : p ∈ (a.arrive q).handed := by
  unfold arrive
  split <;> exact hp

/-- A party that has been handed a slot keeps it when another one resumes. -/
lemma handed_resume (hp : p ∈ a.handed) (hq : q ≠ p) : p ∈ (a.resume q).handed := by
  unfold resume
  split
  · exact (List.mem_erase_of_ne (Ne.symm hq)).mpr hp
  · exact hp

/-- A party that has been handed a slot keeps it when another one leaves. -/
lemma handed_leave (hp : p ∈ a.handed) (hq : q ≠ p) : p ∈ (a.leave q).handed := by
  unfold leave
  split_ifs
  · rw [release_handed]
    exact List.mem_append_left _ hp
  · rw [release_handed]
    exact List.mem_append_left _ ((List.mem_erase_of_ne (Ne.symm hq)).mpr hp)
  · exact hp

end Ahead

/-! ## Turns of other parties -/

namespace Touched

variable {a b c : Admission α} {p q : α}

lemma trans (h : Touched a q b) (h' : Touched b q c) : Touched a q c := by
  induction h' with
  | keeps => exact h
  | arrives _ hout ih => exact ih.arrives hout
  | resumes _ ih => exact ih.resumes
  | leaves _ ih => exact ih.leaves

/-- The slots stay accounted for. -/
lemma valid (h : Touched a q b) (ha : a.Valid) : b.Valid := by
  induction h with
  | keeps => exact ha
  | arrives _ hout ih => exact ih.arrive hout
  | resumes _ ih => exact ih.resume q
  | leaves _ ih => exact ih.leave q

/-- A slot that has been handed to a party is not taken from it by another one. -/
lemma handed (h : Touched a q b) (hp : p ∈ a.handed) (hq : q ≠ p) : p ∈ b.handed := by
  induction h with
  | keeps => exact hp
  | arrives _ _ ih => exact handed_arrive ih
  | resumes _ ih => exact handed_resume ih hq
  | leaves _ ih => exact handed_leave ih hq

/-- After a turn of another party, one that waits has been handed a slot or still waits. Nobody new is in
front of it then, and if the other one has given back a slot that it held, one fewer is. -/
lemma line (h : Touched a q b) (ha : a.Valid) (hp : p ∈ a.waiting) (hq : q ≠ p) :
    p ∈ b.handed ∨ p ∈ b.waiting ∧ b.ahead p <+ a.ahead p ∧
      (q ∈ a.holders → q ∉ b.holders → (b.ahead p).length < (a.ahead p).length) := by
  induction h with
  | keeps => exact .inr ⟨hp, List.Sublist.refl _, fun hholds hnot => absurd hholds hnot⟩
  | @arrives b h _ ih =>
    rcases ih with hhanded | ⟨hwaits, hsub, hshorter⟩
    · exact .inl (handed_arrive hhanded)
    · right
      rw [(h.valid ha).arrive_waiting hwaits q]
      refine ⟨List.mem_append_left _ hwaits, ?_, ?_⟩ <;> unfold ahead <;>
        rw [takeWhile_ne_append hwaits]
      · exact hsub
      · exact hshorter
  | @resumes b h ih =>
    rcases ih with hhanded | ⟨hwaits, hsub, hshorter⟩
    · exact .inl (handed_resume hhanded hq)
    · right
      unfold resume
      split
      · exact ⟨hwaits, hsub, fun hholds hnot =>
          hshorter hholds fun hmem => hnot (List.mem_append_left _ hmem)⟩
      · exact ⟨hwaits, hsub, hshorter⟩
  | @leaves b h ih =>
    rcases ih with hhanded | ⟨hwaits, hsub, hshorter⟩
    · exact .inl (handed_leave hhanded hq)
    · rcases (h.valid ha).ahead_leave hwaits hq with hhanded | ⟨hwaits', hsub', hslot⟩
      · exact .inl hhanded
      · refine .inr ⟨hwaits', hsub'.trans hsub, fun hholds _ => ?_⟩
        by_cases hstill : q ∈ b.holders
        · have hone := hslot (.inl hstill)
          have hle := hsub.length_le
          omega
        · exact hsub'.length_le.trans_lt (hshorter hholds hstill)

end Touched

end Gateway.Admission
