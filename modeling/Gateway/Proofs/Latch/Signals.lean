import Mathlib
import Gateway.Latch

/-!
# Signals of a latch

Owners of a latch are copied and dropped, and so are the signals that wait for it, in any order and as
often as one likes. Still all signals agree: whether a signal is triggered only depends on what has been
done with the owners so far, namely whether one of them has triggered the latch
(`Latch.History.Triggered`) or every one of them has been dropped (`Latch.History.Abandoned`). When and
from which owner or signal the signal was made does not matter (`latched_of_reached`).

Both conditions last: an owner can only be made from one that is there, so that a latch without owners
stays without them. Hence a signal that has been triggered is followed by triggered signals only.
-/

namespace Gateway.Latch

variable {l l' : Latch} {s : Step} {answer : Answer} {name : String}

/-! ## Steps -/

/-- What a step does with a latch, and what comes of it. -/
inductive Takes (l : Latch) : Step → Latch → Answer → Prop where
  | signal {name owner : String} (howner : owner ∈ l.owners) (hnew : name ∉ l.signals) :
      Takes l (.signal name owner) { l with signals := l.signals ++ [name] } .done
  | cloneSignal {name signal : String} (hsignal : signal ∈ l.signals) (hnew : name ∉ l.signals) :
      Takes l (.cloneSignal name signal) { l with signals := l.signals ++ [name] } .done
  | cloneOwner {name owner : String} (howner : owner ∈ l.owners) (hnew : name ∉ l.owners) :
      Takes l (.cloneOwner name owner) { l with owners := l.owners ++ [name] } .done
  | trigger {owner : String} (howner : owner ∈ l.owners) :
      Takes l (.trigger owner) { l with triggered := true } .done
  | drop (owner : String) :
      Takes l (.drop owner) { l with owners := l.owners.filter (· != owner) }
        (.dropped (l.owners.contains owner))
  | poll {signal : String} (hsignal : signal ∈ l.signals) :
      Takes l (.poll signal) l (.polled l.fires)

/-- A step that is possible does one of the things that steps do. -/
lemma takes_of_step? (hstep : l.step? s = some (l', answer)) : Takes l s l' answer := by
  cases s <;> simp only [step?, Option.ite_none_right_eq_some, Option.some.injEq,
    Prod.mk.injEq] at hstep
  case signal =>
    obtain ⟨⟨howner, hnew⟩, rfl, rfl⟩ := hstep
    exact .signal howner hnew
  case cloneSignal =>
    obtain ⟨⟨hsignal, hnew⟩, rfl, rfl⟩ := hstep
    exact .cloneSignal hsignal hnew
  case cloneOwner =>
    obtain ⟨⟨howner, hnew⟩, rfl, rfl⟩ := hstep
    exact .cloneOwner howner hnew
  case trigger =>
    obtain ⟨howner, rfl, rfl⟩ := hstep
    exact .trigger howner
  case drop =>
    obtain ⟨rfl, rfl⟩ := hstep
    exact .drop _
  case poll =>
    obtain ⟨hsignal, rfl, rfl⟩ := hstep
    exact .poll hsignal

/-- A latch whose signals are triggered stays so: it cannot get new owners once it has none. -/
lemma Takes.fires (h : Takes l s l' answer) (hfires : l.fires = true) : l'.fires = true := by
  simp only [Latch.fires, Bool.or_eq_true, List.isEmpty_iff] at hfires ⊢
  cases h with
  | signal | cloneSignal | poll => exact hfires
  | cloneOwner howner =>
    refine hfires.imp_right fun hnone => ?_
    rw [hnone] at howner
    exact absurd howner List.not_mem_nil
  | trigger => exact .inl rfl
  | drop owner =>
    refine hfires.imp_right fun hnone => ?_
    rw [hnone, List.filter_nil]

/-! ## Histories -/

/-- The steps so far, the latest last, each with what came of it. -/
abbrev History := List (Step × Answer)

namespace History

/-- Whether some owner has triggered the latch. -/
def Triggered (h : History) : Prop := ∃ e ∈ h, ∃ owner, e.1 = .trigger owner

/-- Whether an owner has just been made, the first one with the latch itself. -/
def Makes (first : String) (h : History) (name : String) : Prop :=
  (h = [] ∧ name = first) ∨
    ∃ before owner answer, h = before ++ [(Step.cloneOwner name owner, answer)]

/-- Whether an owner is there: it has been made, and not dropped since. -/
def Alive (first : String) (h : History) (name : String) : Prop :=
  ∃ before after : History, h = before ++ after ∧ before.Makes first name ∧
    ∀ e ∈ after, e.1 ≠ .drop name

/-- Whether every owner has been dropped. -/
def Abandoned (first : String) (h : History) : Prop := ∀ name, ¬ h.Alive first name

/-- Whether a signal has been made, by an owner or as a copy. -/
def Knows (h : History) (name : String) : Prop :=
  ∃ e ∈ h, (∃ owner, e.1 = .signal name owner) ∨ ∃ signal, e.1 = .cloneSignal name signal

variable {first : String} {h : History} {e : Step × Answer}

lemma triggered_concat : Triggered (h ++ [e]) ↔ h.Triggered ∨ ∃ owner, e.1 = .trigger owner := by
  simp [Triggered, or_and_right, exists_or]

lemma knows_concat : Knows (h ++ [e]) name ↔ h.Knows name ∨
    (∃ owner, e.1 = .signal name owner) ∨ ∃ signal, e.1 = .cloneSignal name signal := by
  simp [Knows, or_and_right, exists_or]

/-- An owner is there after a step if the step makes it, or if it was there and the step does not drop
it. -/
lemma alive_concat : Alive first (h ++ [e]) name ↔
    (∃ owner, e.1 = .cloneOwner name owner) ∨ h.Alive first name ∧ e.1 ≠ .drop name := by
  constructor
  · rintro ⟨before, after, heq, hmakes, hkept⟩
    rcases after.eq_nil_or_concat' with rfl | ⟨after, last, rfl⟩
    · left
      rw [List.append_nil] at heq
      subst heq
      rcases hmakes with ⟨hnil, -⟩ | ⟨before, owner, answer, hmade⟩
      · exact absurd hnil (by simp)
      · obtain ⟨-, hlast⟩ := List.append_inj' hmade rfl
        obtain rfl := List.singleton_inj.mp hlast
        exact ⟨owner, rfl⟩
    · right
      rw [← List.append_assoc] at heq
      obtain ⟨rfl, hlast⟩ := List.append_inj' heq rfl
      obtain rfl := List.singleton_inj.mp hlast
      refine ⟨⟨before, after, rfl, hmakes, fun e he => ?_⟩, ?_⟩
      · exact hkept e (List.mem_append_left _ he)
      · exact hkept _ (List.mem_append_right _ (List.mem_singleton_self _))
  · rintro (⟨owner, howner⟩ | ⟨⟨before, after, rfl, hmakes, hkept⟩, hdrop⟩)
    · obtain ⟨s, answer⟩ := e
      obtain rfl := howner
      exact ⟨h ++ [(.cloneOwner name owner, answer)], [], (List.append_nil _).symm,
        .inr ⟨h, owner, answer, rfl⟩, by simp⟩
    · refine ⟨before, after ++ [e], List.append_assoc _ _ _, hmakes, fun f hf => ?_⟩
      rcases List.mem_append.mp hf with hf | hf
      · exact hkept f hf
      · obtain rfl := List.mem_singleton.mp hf
        exact hdrop

end History

/-- The latches to which histories lead from a new one with a first owner. -/
inductive Reached (first : String) : History → Latch → Prop where
  | start : Reached first [] (new first)
  | step {h : History} {l l' : Latch} {s : Step} {answer : Answer} (hreach : Reached first h l)
      (hstep : l.step? s = some (l', answer)) : Reached first (h ++ [(s, answer)]) l'

variable {first : String} {h : History}

/-- Whether a latch is as its history tells. -/
structure Told (first : String) (h : History) (l : Latch) : Prop where
  triggered : l.triggered = true ↔ h.Triggered
  owners : ∀ name, name ∈ l.owners ↔ h.Alive first name
  signals : ∀ name, name ∈ l.signals ↔ h.Knows name

/-- A new latch has its first owner and nothing else. -/
lemma told_new (first : String) : Told first [] (new first) where
  triggered := by simp [new, History.Triggered]
  owners name := by simp [new, History.Alive, History.Makes]
  signals name := by simp [new, History.Knows]

/-- A latch is as its history tells after every step. -/
lemma Told.step (hl : Told first h l) (htakes : Takes l s l' answer) :
    Told first (h ++ [(s, answer)]) l' := by
  obtain ⟨htriggered, howners, hsignals⟩ := hl
  refine ⟨?_, fun name => ?_, fun name => ?_⟩
  · rw [History.triggered_concat, ← htriggered]
    cases htakes <;> simp
  · rw [History.alive_concat, ← howners]
    cases htakes with
    | cloneOwner => simp [or_comm, @eq_comm _ name]
    | drop => simp [@eq_comm _ name]
    | _ => simp
  · rw [History.knows_concat, ← hsignals]
    cases htakes with
    | signal | cloneSignal => simp [@eq_comm _ name]
    | _ => simp

/-- A latch that is reached is as its history tells. -/
lemma told_of_reached (hreach : Reached first h l) : Told first h l := by
  induction hreach with
  | start => exact told_new first
  | step _ hstep ih => exact ih.step (takes_of_step? hstep)

/-- Signals are triggered if the latch has been triggered or has no owners any more. -/
lemma Told.fires_iff (hl : Told first h l) :
    l.fires = true ↔ h.Triggered ∨ h.Abandoned first := by
  rw [fires, Bool.or_eq_true, hl.triggered, List.isEmpty_iff, List.eq_nil_iff_forall_not_mem]
  simp only [hl.owners, History.Abandoned]

/-! ## Signals -/

/-- Once a signal has been triggered, the signals of the latch are triggered. -/
lemma fires_of_mem (hreach : Reached first h l) {e : Step × Answer} (he : e ∈ h)
    (htriggered : e.2 = .polled true) : l.fires = true := by
  induction hreach with
  | start => exact absurd he List.not_mem_nil
  | @step h l l' s answer hreach hstep ih =>
    have htakes := takes_of_step? hstep
    rcases List.mem_append.mp he with he | he
    · exact htakes.fires (ih he)
    · obtain rfl := List.mem_singleton.mp he
      cases htakes with
      | poll => exact Answer.polled.inj htriggered
      | _ => cases htriggered

/-- A signal that is triggered is followed by triggered signals only. -/
lemma pairwise_of_reached (hreach : Reached first h l) :
    h.Pairwise fun e f => e.2 = .polled true → f.2 ≠ .polled false := by
  induction hreach with
  | start => exact .nil
  | @step h l l' s answer hreach hstep ih =>
    refine List.pairwise_append.mpr ⟨ih, List.pairwise_singleton _ _, ?_⟩
    intro e he f hf htriggered
    obtain rfl := List.mem_singleton.mp hf
    have hfires := fires_of_mem hreach he htriggered
    cases takes_of_step? hstep with
    | poll =>
      rw [hfires]
      simp
    | _ => simp

/-- Whether a step is possible after a history: owners and signals that it needs must be there, and the
name of a new one must be free. -/
def Step.Possible (first : String) (h : History) : Step → Prop
  | .signal name owner => h.Alive first owner ∧ ¬ h.Knows name
  | .cloneSignal name other => h.Knows other ∧ ¬ h.Knows name
  | .cloneOwner name owner => h.Alive first owner ∧ ¬ h.Alive first name
  | .trigger owner => h.Alive first owner
  | .drop _ => True
  | .poll name => h.Knows name

/-- These are the steps that a latch takes. -/
lemma Told.isSome_step?_iff (hl : Told first h l) (s : Step) :
    (l.step? s).isSome ↔ s.Possible first h := by
  cases s <;> simp [step?, Step.Possible, ← hl.owners, ← hl.signals]

/-- What a latch promises after a history. -/
structure Latched (first : String) (h : History) (l : Latch) : Prop where
  /-- A signal is triggered exactly if some owner has triggered the latch or every owner has been
  dropped. -/
  polls : ∀ signal, h.Knows signal → ∃ b, l.step? (.poll signal) = some (l, .polled b) ∧
    (b = true ↔ h.Triggered ∨ h.Abandoned first)
  /-- A signal that is triggered is followed by triggered signals only. -/
  lasting : h.Pairwise fun e f => e.2 = .polled true → f.2 ≠ .polled false
  /-- As long as there is an owner and none has triggered the latch, no signal has been triggered. -/
  waiting : (∃ owner, h.Alive first owner) → ¬ h.Triggered → ∀ e ∈ h, e.2 ≠ .polled true
  /-- Owners can trigger the latch and make owners and signals as long as they are there, and signals can
  always be copied. -/
  possible : ∀ s, (l.step? s).isSome ↔ s.Possible first h

/-- Whatever is done with owners and signals and in whatever order, a signal is triggered exactly if some
owner has triggered the latch or every owner has been dropped. -/
theorem latched_of_reached (hreach : Reached first h l) : Latched first h l := by
  have hl := told_of_reached hreach
  refine ⟨fun signal hsignal => ?_, pairwise_of_reached hreach, ?_, hl.isSome_step?_iff⟩
  · exact ⟨l.fires, if_pos ((hl.signals signal).mpr hsignal), hl.fires_iff⟩
  · rintro ⟨owner, howner⟩ hquiet e he htriggered
    rcases hl.fires_iff.mp (fires_of_mem hreach he htriggered) with htrigger | hnone
    · exact hquiet htrigger
    · exact hnone owner howner

/-- Two owners and two signals: the first signal waits for the second owner, and its copy is looked at when
both owners are gone. -/
def twoOwners : History :=
  [(.signal "a" "main", .done), (.cloneOwner "other" "main", .done), (.drop "main", .dropped true),
    (.poll "a", .polled false), (.cloneSignal "b" "a", .done), (.drop "other", .dropped true),
    (.poll "b", .polled true)]

theorem latched_of_twoOwners :
    Reached "main" twoOwners ⟨false, [], ["a", "b"]⟩ ∧
      Latched "main" twoOwners ⟨false, [], ["a", "b"]⟩ := by
  have h₁ : Reached "main" [(.signal "a" "main", .done)] ⟨false, ["main"], ["a"]⟩ :=
    .step (h := []) .start rfl
  have h₂ := h₁.step (s := .cloneOwner "other" "main") rfl
  have h₃ := h₂.step (s := .drop "main") rfl
  have h₄ := h₃.step (s := .poll "a") rfl
  have h₅ := h₄.step (s := .cloneSignal "b" "a") rfl
  have h₆ := h₅.step (s := .drop "other") rfl
  have hreach : Reached "main" twoOwners ⟨false, [], ["a", "b"]⟩ := h₆.step (s := .poll "b") rfl
  exact ⟨hreach, latched_of_reached hreach⟩

end Gateway.Latch
