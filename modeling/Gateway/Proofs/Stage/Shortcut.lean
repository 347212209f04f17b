import Mathlib
import Gateway.Proofs.Stage.Move

/-!
# Answers without admission

Four kinds of requests never ask for a slot: questions about options, requests with any other method
than the one for images, requests that do not present the secret, and those for the health of the
gateway. `Stage.Shortcut` lists them with their answers. It is a second account of who has to be
admitted (`Stage.exists_shortcut_iff`), and for each of these requests it says everything that is seen
of its arrival: the shared state is neither looked at nor changed (`Stage.Shortcut.arrive`).
-/

namespace Gateway

namespace Stage

/-- The requests that are answered without admission, each with what is logged about its answer and
with the answer. -/
inductive Shortcut (s : Service) (request : Request) : List LogEntry → Http.Response → Prop
  | options (hmethod : request.method = .options) :
      Shortcut s request [.responded .ok optionsMessage] ⟨.ok, [], []⟩
  | method (hoptions : request.method ≠ .options) (hget : request.method ≠ .get) :
      Shortcut s request [.failed .invalidMethod]
        (.plain .unprocessable "Method doesn't allowed")
  | secret (hget : request.method = .get) (hadmits : s.secret.admits request.fields = false) :
      Shortcut s request [.failed .invalidSecret] (.plain .forbidden "Forbidden")
  | health (hget : request.method = .get) (hadmits : s.secret.admits request.fields = true)
      (hshown : request.target.shown = "/health") :
      Shortcut s request [] (.plain .ok "image-gateway is running")

variable {s : Service} {request : Request} {entries : List LogEntry} {resp : Http.Response}

/-- The check for the secret passes the requests that it admits. -/
lemma check_eq_ok_iff {secret : Access.Secret} {fs : Http.Fields} :
    secret.check fs = .ok () ↔ secret.admits fs = true := by
  unfold Access.Secret.check
  split
  · next hadmits => simp [hadmits]
  · next hadmits => simp [hadmits]

lemma Shortcut.not_needsSlot (h : Shortcut s request entries resp) : ¬ NeedsSlot s request := by
  rintro ⟨hget, hcheck, hshown⟩
  rw [check_eq_ok_iff] at hcheck
  cases h with
  | options hmethod => rw [hmethod] at hget; cases hget
  | method _ hother => exact hother hget
  | secret _ hadmits => rw [hadmits] at hcheck; cases hcheck
  | health _ _ hhealth => exact hshown hhealth

/-- The requests that are answered without admission are those that need no slot. -/
theorem exists_shortcut_iff :
    (∃ entries resp, Shortcut s request entries resp) ↔ ¬ NeedsSlot s request := by
  constructor
  · rintro ⟨entries, resp, h⟩
    exact h.not_needsSlot
  · intro hneeds
    by_cases hoptions : request.method = .options
    · exact ⟨_, _, .options hoptions⟩
    by_cases hget : request.method = .get
    · rcases hadmits : s.secret.admits request.fields with _ | _
      · exact ⟨_, _, .secret hget hadmits⟩
      · have hshown : request.target.shown = "/health" :=
          not_not.mp fun hother => hneeds ⟨hget, check_eq_ok_iff.mpr hadmits, hother⟩
        exact ⟨_, _, .health hget hadmits hshown⟩
    · exact ⟨_, _, .method hoptions hget⟩

/-- What is seen when a request is answered without admission, and where it stops: neither depends on
the others. -/
lemma Shortcut.arrive {job : Job} (h : Shortcut s job.request entries resp) (i now : Nat)
    (shared : Shared) :
    arrive s job i now shared = ⟨shared,
      (.requestStarted job.request.target.shown :: entries).map .log, answered s now resp⟩ := by
  cases h with
  | options hmethod =>
    simp only [Stage.arrive, if_pos hmethod]
    rfl
  | method hoptions hget =>
    simp only [Stage.arrive, if_neg hoptions, if_pos hget]
    rfl
  | secret hget hadmits =>
    have hoptions : job.request.method ≠ .options := by simp [hget]
    have hcheck : s.secret.check job.request.fields = .error .invalidSecret := by
      simp [Access.Secret.check, hadmits]
    simp only [Stage.arrive, if_neg hoptions, if_neg (not_not.mpr hget), hcheck]
    rfl
  | health hget hadmits hshown =>
    have hoptions : job.request.method ≠ .options := by simp [hget]
    have hhealth : job.request.target.shown = healthPath := hshown
    simp only [Stage.arrive, if_neg hoptions, if_neg (not_not.mpr hget),
      check_eq_ok_iff.mpr hadmits, if_pos hhealth]
    rfl

end Stage

end Gateway
