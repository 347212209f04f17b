import Mathlib
import Gateway.Proofs.Stage.Move

/-!
# Requests under other names

A request is known to the slots by its place in the list of requests. Nothing depends on what the
places are: if all of them are renamed without confusing any, every operation on the slots does the same
under the new names (`Admission.rename_leave` and its siblings), and so does every turn of a request.
Two turns of one request that find the same slots under two sets of names show the same events, stop
in the same place, and leave the same slots behind (`Turn.Mirrors`).
-/

namespace Gateway

namespace Admission

variable {α β : Type} {f : α → β}

/-- The same slots with other names for the parties. -/
def rename (f : α → β) (a : Admission α) : Admission β :=
  ⟨a.capacity, a.free, a.waiting.map f, a.handed.map f, a.holders.map f⟩

lemma rename_new (f : α → β) (capacity : Nat) :
    (new capacity : Admission α).rename f = new capacity :=
  rfl

@[simp] lemma rename_free (f : α → β) (a : Admission α) : (a.rename f).free = a.free :=
  rfl

@[simp] lemma rename_inUse (f : α → β) (a : Admission α) : (a.rename f).inUse = a.inUse :=
  rfl

lemma rename_arrive (f : α → β) (a : Admission α) (p : α) :
    (a.rename f).arrive (f p) = (a.arrive p).rename f := by
  unfold arrive
  split
  · next hfree =>
    rw [if_pos (show 0 < a.free from hfree)]
    simp [rename]
  · next hfree =>
    rw [if_neg (show ¬ 0 < a.free from hfree)]
    simp [rename]

lemma rename_release (f : α → β) (a : Admission α) :
    (a.rename f).release = a.release.rename f := by
  unfold release rename
  rcases a.waiting with _ | ⟨p, ps⟩ <;> simp

lemma mem_rename_holders (hf : f.Injective) {a : Admission α} {p : α} :
    f p ∈ (a.rename f).holders ↔ p ∈ a.holders :=
  List.mem_map_of_injective hf

lemma mem_rename_handed (hf : f.Injective) {a : Admission α} {p : α} :
    f p ∈ (a.rename f).handed ↔ p ∈ a.handed :=
  List.mem_map_of_injective hf

variable [DecidableEq α] [DecidableEq β]

lemma rename_resume (hf : f.Injective) (a : Admission α) (p : α) :
    (a.rename f).resume (f p) = (a.resume p).rename f := by
  unfold resume
  simp only [mem_rename_handed hf]
  split
  · simp [rename, List.map_erase hf]
  · rfl

lemma rename_leave (hf : f.Injective) (a : Admission α) (p : α) :
    (a.rename f).leave (f p) = (a.leave p).rename f := by
  unfold leave
  simp only [mem_rename_holders hf, mem_rename_handed hf]
  split_ifs
  · rw [← rename_release]
    simp [rename, List.map_erase hf]
  · rw [← rename_release]
    simp [rename, List.map_erase hf]
  · simp [rename, List.map_erase hf]

end Admission

/-- Two turns differ in the names of the requests at most. -/
structure Turn.Mirrors (f : Nat → Nat) (a b : Turn) : Prop where
  events : a.events = b.events
  phase : a.phase = b.phase
  admission : a.shared.admission = b.shared.admission.rename f

lemma Turn.Mirrors.after {f : Nat → Nat} {a b : Turn} (h : a.Mirrors f b) (es : List Event) :
    (Turn.after es a).Mirrors f (Turn.after es b) :=
  ⟨congrArg (es ++ ·) h.events, h.phase, h.admission⟩

namespace Stage

variable {s : Service} {job : Job} {f : Nat → Nat} {shared shared' : Shared}

lemma departureEvents_renamed (hadmission : shared.admission = shared'.admission.rename f)
    (img : Bool) : departureEvents shared img = departureEvents shared' img := by
  rw [departureEvents, departureEvents, hadmission, Admission.rename_inUse]

/-- The same work has the same ending under other names. -/
lemma Ending.turn_mirrors (hf : f.Injective)
    (hadmission : shared.admission = shared'.admission.rename f) (s : Service) (i now : Nat)
    (w : List Event) (e : Ending) :
    (e.turn s (f i) now shared w).Mirrors f (e.turn s i now shared' w) := by
  rcases e with p | ⟨img, result⟩
  · exact ⟨rfl, rfl, hadmission⟩
  · have hdeparture := departureEvents_renamed hadmission img
    refine ⟨?_, rfl, ?_⟩
    · rcases result with failure | ⟨resp, entry⟩ <;> simp only [turn, events, hdeparture]
    · simp only [turn, Ending.shared, departed, hadmission, Admission.rename_leave hf]

/-- A request that waits for a collaborator goes on in the same way under another name. -/
lemma fire_mirrors (hf : f.Injective)
    (hadmission : shared.admission = shared'.admission.rename f) {p : Phase} {q : Pending}
    (hp : p.pending? = some q)
    (hsource : q.stage = .download → ∀ source, q.result = .ok source →
      job.collaborators.download.answer = .ok source) (i now : Nat) :
    (fire s job (f i) now shared p).Mirrors f (fire s job i now shared' p) := by
  obtain ⟨w, e, -, hturn⟩ := @fire_works s job now p q hp hsource
  obtain ⟨pool, heq⟩ := hturn (f i) shared
  obtain ⟨pool', heq'⟩ := hturn i shared'
  simp only at heq heq'
  rw [heq, heq']
  exact @Ending.turn_mirrors f ⟨shared.admission, pool⟩ ⟨shared'.admission, pool'⟩ hf hadmission
    s i now w e

/-- A request that holds a slot enters in the same way under another name. -/
lemma admitted_mirrors (hf : f.Injective)
    (hadmission : shared.admission = shared'.admission.rename f) (i now : Nat) :
    (admitted s job (f i) now shared).Mirrors f (admitted s job i now shared') := by
  have huse : shared.admission.inUse = shared'.admission.inUse := by
    rw [hadmission, Admission.rename_inUse]
  rcases hstart : Deadline.start? (instantOf now) s.writeTimeout with _ | d
  · rw [admitted_panics hstart, admitted_panics hstart, huse,
      departureEvents_renamed hadmission]
    exact ⟨rfl, rfl, by simp only [departed, hadmission, Admission.rename_leave hf]⟩
  · obtain ⟨w, e, -, hturn⟩ := @admitted_works s job now d hstart
    obtain ⟨pool, heq⟩ := hturn (f i) shared
    obtain ⟨pool', heq'⟩ := hturn i shared'
    rw [heq, heq', huse]
    exact @Ending.turn_mirrors f ⟨shared.admission, pool⟩ ⟨shared'.admission, pool'⟩ hf
      hadmission s i now _ e

/-- A request to which a slot has been handed resumes in the same way under another name. -/
lemma resume_mirrors (hf : f.Injective)
    (hadmission : shared.admission = shared'.admission.rename f) (i now : Nat) :
    (resume s job (f i) now shared).Mirrors f (resume s job i now shared') := by
  refine admitted_mirrors hf ?_ i now
  rw [hadmission, Admission.rename_resume hf]

/-- A request arrives in the same way under another name. -/
lemma arrive_mirrors (hf : f.Injective)
    (hadmission : shared.admission = shared'.admission.rename f) (i now : Nat) :
    (arrive s job (f i) now shared).Mirrors f (arrive s job i now shared') := by
  by_cases hneeds : NeedsSlot s job.request
  · rw [arrive_of_needsSlot hneeds, arrive_of_needsSlot hneeds]
    refine Turn.Mirrors.after ?_ _
    have harrive : shared.admission.arrive (f i) = (shared'.admission.arrive i).rename f := by
      rw [hadmission, Admission.rename_arrive]
    have hholds : f i ∈ (shared.admission.arrive (f i)).holders ↔
        i ∈ (shared'.admission.arrive i).holders := by
      rw [harrive, Admission.mem_rename_holders hf]
    by_cases hheld : i ∈ (shared'.admission.arrive i).holders
    · rw [requestSlot_of_holds hheld, requestSlot_of_holds (hholds.mpr hheld)]
      exact (admitted_mirrors hf harrive i now).after _
    · rw [requestSlot_of_not_holds hheld, requestSlot_of_not_holds (hheld ∘ hholds.mp)]
      exact ⟨rfl, rfl, harrive⟩
  · obtain ⟨es, r, -, harrive⟩ := arrive_of_not_needsSlot hneeds now
    rw [harrive, harrive]
    exact ⟨rfl, rfl, hadmission⟩

/-- A request is cancelled in the same way under another name. -/
lemma cancel_mirrors (hf : f.Injective)
    (hadmission : shared.admission = shared'.admission.rename f) (i : Nat) (p : Phase) :
    (cancel (f i) shared p).Mirrors f (cancel i shared' p) := by
  have hleave : (departed shared (f i)).admission = (departed shared' i).admission.rename f := by
    simp only [departed, hadmission, Admission.rename_leave hf]
  cases p with
  | expected | ended => exact ⟨rfl, rfl, hadmission⟩
  | queued => exact ⟨rfl, rfl, hleave⟩
  | downloading | processing => exact ⟨departureEvents_renamed hadmission _, rfl, hleave⟩

end Stage

end Gateway
