import Mathlib
import Gateway.Proofs.Run.Reachable

/-!
# Runs in lockstep

Two gateways can differ in something that no request ever waits for, and so can two lists of requests.
Their runs then go side by side. `Run.Lockstep R` says that two runs have come equally far: the time and
the shared state are the same, and the requests are related by `R`, place by place. What it takes is that
related requests have the same timers and take turns after which they are related again
(`Task.Kept`). From this every action keeps two runs in lockstep (`Run.Lockstep.act`), and with it every
run has a counterpart (`Run.Reachable.lockstep`) and serving ends in the same way
(`Run.lockstep_serve`).
-/

namespace Gateway

variable {s s' : Service} {R : Task → Task → Prop}

/-! ## Lists that are related place by place -/

section Lists

variable {α β γ : Type} {P : α → β → Prop} {l : List α} {l' : List β}

/-- At a place of one list stands something that is related to what stands there in the other one. -/
lemma exists_of_forall₂ (h : List.Forall₂ P l l') {i : Nat} {a : α} (ha : l[i]? = some a) :
    ∃ b, l'[i]? = some b ∧ P a b := by
  induction h generalizing i with
  | nil => cases ha
  | cons hab _ ih =>
    cases i with
    | zero =>
      obtain rfl := Option.some.inj ha
      exact ⟨_, rfl, hab⟩
    | succ i => exact ih ha

/-- Two lists stay related when they are changed at one place in related ways. -/
lemma forall₂_set (h : List.Forall₂ P l l') {a : α} {b : β} (hab : P a b) (i : Nat) :
    List.Forall₂ P (l.set i a) (l'.set i b) := by
  induction h generalizing i with
  | nil => exact .nil
  | cons hhead htail ih =>
    cases i with
    | zero => exact .cons hab htail
    | succ i => exact .cons hhead (ih i)

/-- What is the same for related elements is the same for related lists. -/
lemma map_eq_of_forall₂ {f : α → γ} {g : β → γ} (h : List.Forall₂ P l l')
    (hfg : ∀ a b, P a b → f a = g b) : l.map f = l'.map g := by
  induction h with
  | nil => rfl
  | cons hab _ ih => rw [List.map_cons, List.map_cons, hfg _ _ hab, ih]

end Lists

/-! ## Turns in lockstep -/

/-- Two turns of related requests leave the same shared state behind and related requests. -/
structure Turn.Pairs (R : Task → Task → Prop) (t t' : Task) (turn turn' : Turn) : Prop where
  shared : turn.shared = turn'.shared
  after : ∀ now, R (t.after now turn) (t'.after now turn')

/-- A relation between requests is kept by all turns that they can take at the same time, if they find
the same shared state. -/
structure Task.Kept (s s' : Service) (R : Task → Task → Prop) : Prop where
  timer? : ∀ {t t'}, R t t' → t.timer? = t'.timer?
  fire : ∀ {t t'}, R t t' → ∀ i now shared, Turn.Pairs R t t'
    (Stage.fire s t.job i now shared t.phase) (Stage.fire s' t'.job i now shared t'.phase)
  cancel : ∀ {t t'}, R t t' → ∀ i shared, Turn.Pairs R t t'
    (Stage.cancel i shared t.phase) (Stage.cancel i shared t'.phase)
  resume : ∀ {t t'}, R t t' → ∀ i now shared, Turn.Pairs R t t'
    (Stage.resume s t.job i now shared) (Stage.resume s' t'.job i now shared)

/-! ## Runs in lockstep -/

namespace Run

variable {jobs jobs' : List Job} {r r' : Run} {horizon : Nat}

/-- Two runs have come equally far. -/
structure Lockstep (R : Task → Task → Prop) (r r' : Run) : Prop where
  clock : r.clock = r'.clock
  shared : r.shared = r'.shared
  tasks : List.Forall₂ R r.tasks r'.tasks

namespace Lockstep

/-- The first timer is the same. -/
lemma earliest_eq (hkept : Task.Kept s s' R) {ts ts' : List Task} (h : List.Forall₂ R ts ts') (k : Nat) :
    earliest k ts = earliest k ts' := by
  induction h generalizing k with
  | nil => rfl
  | cons htask _ ih => simp only [earliest, hkept.timer? htask, ih]

/-- The same happens next. -/
lemma next?_eq (hkept : Task.Kept s s' R) (h : Lockstep R r r') (horizon : Nat) :
    r.next? horizon = r'.next? horizon := by
  unfold next?
  rw [earliest_eq hkept h.tasks, h.shared, h.clock]

/-- Both runs have stopped or neither has. -/
lemma stoppedAt_iff (hkept : Task.Kept s s' R) (h : Lockstep R r r') :
    r.StoppedAt horizon ↔ r'.StoppedAt horizon := by
  rw [StoppedAt, StoppedAt, h.next?_eq hkept, h.clock]

/-- The same may happen. -/
lemma allowed (hkept : Task.Kept s s' R) (h : Lockstep R r r') {a : Action} (ha : r.Allowed a) :
    r'.Allowed a := by
  cases ha with
  | due htask htimer hdue =>
    obtain ⟨t', htask', ht⟩ := exists_of_forall₂ h.tasks htask
    exact .due htask' (hkept.timer? ht ▸ htimer) (h.clock ▸ hdue)
  | idle htask htimer hhanded hfirst =>
    obtain ⟨t', htask', ht⟩ := exists_of_forall₂ h.tasks htask
    refine .idle htask' (hkept.timer? ht ▸ htimer) (h.shared ▸ hhanded) ?_
    intro u' hu' b hb
    obtain ⟨k, hk⟩ := List.mem_iff_getElem?.mp hu'
    obtain ⟨u, hu, hrelated⟩ := exists_of_forall₂ h.tasks.flip hk
    exact hfirst u (List.mem_of_getElem? hu) b ((hkept.timer? hrelated).trans hb)
  | resumes hhanded => exact .resumes (h.shared ▸ hhanded)

/-- An action gives related requests turns at the same millisecond, after which they are related. -/
lemma turn (hkept : Task.Kept s s' R) (h : Lockstep R r r') {t t' : Task} (ht : R t t') (a : Action) :
    (r.turn s t a).1 = (r'.turn s' t' a).1 ∧
      Turn.Pairs R t t' (r.turn s t a).2 (r'.turn s' t' a).2 := by
  cases a with
  | timer i b =>
    simp only [Run.turn, h.clock, h.shared, true_and]
    split
    · exact hkept.cancel ht i _
    · exact hkept.fire ht i _ _
  | resume i =>
    simp only [Run.turn, h.clock, h.shared, true_and]
    exact hkept.resume ht i _ _

/-- Runs in lockstep stay so after any action. -/
lemma act (hkept : Task.Kept s s' R) (h : Lockstep R r r') (a : Action) :
    Lockstep R (r.act s a) (r'.act s' a) := by
  rcases htask : r.tasks[a.place]? with _ | t
  · have htask' : r'.tasks[a.place]? = none := by
      rw [List.getElem?_eq_none_iff, ← h.tasks.length_eq, ← List.getElem?_eq_none_iff]
      exact htask
    simpa only [Run.act, htask, htask'] using h
  · obtain ⟨t', htask', ht⟩ := exists_of_forall₂ h.tasks htask
    obtain ⟨hnow, hshared, hafter⟩ := h.turn hkept ht a
    rw [act_of_task htask, act_of_task htask', hnow]
    exact ⟨rfl, hshared, forall₂_set h.tasks (hafter _) _⟩

/-- Runs in lockstep stay so after any number of steps. -/
lemma steps (hkept : Task.Kept s s' R) (h : Lockstep R r r') (n : Nat) :
    Lockstep R (Run.steps s horizon n r) (Run.steps s' horizon n r') := by
  induction n generalizing r r' with
  | zero => exact h
  | succ n ih =>
    have hnext := h.next?_eq hkept horizon
    rcases hr : r.next? horizon with _ | a
    · simpa only [Run.steps, ← hnext, hr] using h
    · simp only [Run.steps, ← hnext, hr]
      exact ih (h.act hkept a)

/-- Runs over related requests start in lockstep if there are equally many slots. -/
lemma start (hcapacity : s.capacity = s'.capacity)
    (hjobs : List.Forall₂ (fun job job' => R (.ofJob job) (.ofJob job')) jobs jobs') :
    Lockstep R (start s jobs) (start s' jobs') := by
  refine ⟨rfl, ?_, ?_⟩
  · simp only [Run.start, hcapacity]
  · rw [Run.start, Run.start, List.forall₂_map_left_iff, List.forall₂_map_right_iff]
    exact hjobs

end Lockstep

variable (hkept : Task.Kept s s' R) (hcapacity : s.capacity = s'.capacity)
  (hjobs : List.Forall₂ (fun job job' => R (.ofJob job) (.ofJob job')) jobs jobs')
include hkept hcapacity hjobs

/-- Every run of one gateway has a counterpart in lockstep. -/
theorem Reachable.lockstep (hr : Reachable s jobs r) :
    ∃ r', Reachable s' jobs' r' ∧ Lockstep R r r' := by
  induction hr with
  | start => exact ⟨_, .start, .start hcapacity hjobs⟩
  | @act r a _ ha ih =>
    obtain ⟨r', hr', h⟩ := ih
    exact ⟨_, hr'.act (h.allowed hkept ha), h.act hkept a⟩

/-- Serving related requests ends in lockstep. -/
theorem lockstep_serve (horizon : Nat) : Lockstep R (serve s jobs horizon) (serve s' jobs' horizon) := by
  rw [serve, serve, hjobs.length_eq]
  exact (Lockstep.start hcapacity hjobs).steps hkept _

end Run

end Gateway
