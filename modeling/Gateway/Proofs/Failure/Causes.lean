import Mathlib
import Gateway.Failure

/-!
# The causes that a message names

A fault that is no failure itself becomes an unexpected failure, whose internal message names the fault
and its nearest causes. A fault may have any number of causes, one behind the other and the last of them
perhaps a failure, so that the message stops after four. It does not leave out any before that, and it
ends in an ellipsis exactly if there are more (`diagnosed_classify`).

The message is written on the way along the causes, with a room that shrinks with each of them. What is
written with any room (`Fault.text_trail`) follows by induction on the room.
-/

namespace Gateway.Fault

variable {e cause : Fault}

/-! ## Causes -/

lemma causes_of_none (hcause : e.cause? = none) : e.causes = [] := by
  cases e with
  | known f => rfl
  | foreign s => rfl
  | causedBy s c => cases hcause

lemma causes_of_some (hcause : e.cause? = some cause) : e.causes = cause.text :: cause.causes := by
  cases e with
  | known f => cases hcause
  | foreign s => cases hcause
  | causedBy s c =>
    obtain rfl := Option.some.inj hcause
    rfl

/-- The causes are what is found by asking for the cause again and again. -/
lemma getElem?_causes (e : Fault) (i : Nat) :
    e.causes[i]? = ((·.bind cause?)^[i + 1] (some e)).map text := by
  induction i generalizing e with
  | zero =>
    rcases hcause : e.cause? with _ | cause
    · simp [causes_of_none hcause, hcause]
    · simp [causes_of_some hcause, hcause]
  | succ i ih =>
    rw [Function.iterate_succ_apply, Option.bind_some]
    rcases hcause : e.cause? with _ | cause
    · rw [causes_of_none hcause, Function.iterate_fixed rfl]
      rfl
    · rw [causes_of_some hcause, List.getElem?_cons_succ, ih]

/-! ## The way along the causes -/

lemma trail_of_none (hcause : e.cause? = none) (room : Nat) : e.trail room = "" := by
  unfold trail
  rw [hcause]

lemma trail_zero (hcause : e.cause? = some cause) : e.trail 0 = ": ..." := by
  unfold trail
  rw [hcause]

lemma trail_succ (hcause : e.cause? = some cause) (room : Nat) :
    e.trail (room + 1) = ": " ++ cause.text ++ cause.trail room := by
  conv_lhs => unfold trail
  rw [hcause]

/-- With its trail the text of a fault is followed by those of as many causes as there is room for, and
by an ellipsis exactly if there are more. -/
lemma text_trail (room : Nat) (e : Fault) :
    e.text ++ e.trail room =
      ": ".intercalate (e.text :: e.causes.take room) ++
        if room < e.causes.length then ": ..." else "" := by
  induction room generalizing e with
  | zero =>
    rcases hcause : e.cause? with _ | cause
    · simp [trail_of_none hcause, causes_of_none hcause]
    · simp [trail_zero hcause, causes_of_some hcause]
  | succ room ih =>
    rcases hcause : e.cause? with _ | cause
    · simp [trail_of_none hcause, causes_of_none hcause]
    · -- the nearest cause takes one of the room, and its own trail has the rest
      rw [trail_succ hcause, causes_of_some hcause, List.take_succ_cons, List.length_cons,
        String.intercalate_cons_cons, String.append_assoc, ih cause]
      simp only [String.append_assoc, Nat.add_lt_add_iff_right]

/-! ## Messages -/

/-- What a fault amounts to. -/
structure Diagnosed (e : Fault) : Prop where
  /-- The causes are what is found by asking for the cause again and again. -/
  causes : ∀ i, e.causes[i]? = ((·.bind cause?)^[i + 1] (some e)).map text
  /-- The internal message of an unexpected failure has the text of the fault and those of its four
  nearest causes, or of all if there are fewer, in this order. An ellipsis follows exactly if there are
  more. -/
  message : (Failure.unexpected e).message =
    "Unexpected error: " ++ ": ".intercalate (e.text :: e.causes.take 4) ++
      if 4 < e.causes.length then ": ..." else ""
  /-- This is what every fault amounts to that is no failure itself, whatever has caused it, -/
  foreign : (∀ f, e ≠ .known f) → e.classify = Failure.unexpected e
  /-- and a failure stays as it is. -/
  known : ∀ f, e = .known f → e.classify = f

/-- The internal message of a fault from outside names the fault and its four nearest causes, and shows
whether there are more. -/
theorem diagnosed_classify (e : Fault) : Diagnosed e := by
  refine ⟨e.getElem?_causes, ?_, ?_, ?_⟩
  · rw [String.append_assoc, ← text_trail, ← String.append_assoc]
    rfl
  · intro hforeign
    cases e with
    | known f => exact absurd rfl (hforeign f)
    | foreign s => rfl
    | causedBy s c => rfl
  · rintro f rfl
    rfl

/-- The fifth cause is left out, though it is a failure. -/
example :
    (classify (.causedBy "a" (.causedBy "b" (.causedBy "c" (.causedBy "d" (.causedBy "e"
      (.known .invalidSecret))))))).message = "Unexpected error: a: b: c: d: e: ..." := by
  decide

end Gateway.Fault
