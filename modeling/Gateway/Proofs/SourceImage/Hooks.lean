import Mathlib
import Gateway.SourceImage

/-!
# Hooks of a source image

A hook frees what the bytes of an image live in, so that every hook that has been attached should run,
and once. An image has room for one hook, though, and attaching another one throws away the hook that
was there without running it (`exists_lost_hook`).

This is the only way in which a hook is lost. What is done with an image is recorded step by step with
the hooks that run (`SourceImage.History`). In every history no hook runs before the image is given
back, and then the one that was attached last runs once (`hooks_of_reached`). So every hook has run
exactly once if and only if there was no more than one.
-/

namespace Gateway.SourceImage

/-! ## Histories -/

/-- The steps so far, the latest last, each with the hooks that ran in it. -/
abbrev History := List (Step × List String)

namespace History

/-- The hook that is attached in a step, if any. -/
def attached? : Step × List String → Option String
  | (.attach tag, _) => some tag
  | (.giveBack, _) => none

/-- The hooks that have been attached, in order. -/
def attached (h : History) : List String := h.filterMap attached?

/-- The hooks that have run, in order. -/
def ran (h : History) : List String := h.flatMap Prod.snd

@[simp] lemma attached_concat (h : History) (e : Step × List String) :
    attached (h ++ [e]) = h.attached ++ (attached? e).toList := by
  rcases he : attached? e with _ | tag <;> simp [attached, he]

@[simp] lemma ran_concat (h : History) (e : Step × List String) :
    ran (h ++ [e]) = h.ran ++ e.2 := by
  simp [ran]

end History

/-- What is left of an image after a history, from given bytes without a hook: nothing once it has been
given back. -/
inductive Reached (data : Bytes) : History → Option SourceImage → Prop
  | start : Reached data [] (some (ofBytes data))
  | step {h : History} {image? next? : Option SourceImage} {s : Step} {tags : List String}
      (hreach : Reached data h image?) (hstep : step? image? s = some (next?, tags)) :
      Reached data (h ++ [(s, tags)]) next?

variable {data : Bytes} {h : History} {image? : Option SourceImage}

/-! ## The hook that is left -/

/-- An image that is still there has the bytes it came with and the hook that was attached last, and no
hook has run. -/
lemma eq_of_reached (hreach : Reached data h image?) {image : SourceImage}
    (himage : image? = some image) : image = ⟨data, h.attached.getLast?⟩ ∧ h.ran = [] := by
  induction hreach generalizing image with
  | start => exact ⟨(Option.some.inj himage).symm, rfl⟩
  | @step h image? next? s tags _ hstep ih =>
    subst himage
    rcases image? with _ | before
    · cases hstep
    · obtain ⟨rfl, hran⟩ := ih rfl
      cases s with
      | attach tag =>
        obtain ⟨hnext, rfl⟩ := Prod.mk.inj (Option.some.inj hstep)
        obtain rfl := Option.some.inj hnext
        constructor
        · simp [withHook, History.attached?]
        · simp [hran]
      | giveBack =>
        obtain ⟨hnext, -⟩ := Prod.mk.inj (Option.some.inj hstep)
        cases hnext

/-- An image that is gone has been given back in the last step, and what ran in it is the hook that had
been attached last. -/
lemma last_of_reached (hreach : Reached data h none) :
    ∃ before : History, h = before ++ [(.giveBack, before.attached.getLast?.toList)] ∧
      before.ran = [] := by
  cases hreach with
  | @step before image? _ s tags hreach hstep =>
    rcases image? with _ | image
    · cases hstep
    · obtain ⟨rfl, hran⟩ := eq_of_reached hreach rfl
      cases s with
      | attach tag =>
        obtain ⟨hnext, -⟩ := Prod.mk.inj (Option.some.inj hstep)
        cases hnext
      | giveBack =>
        obtain ⟨-, rfl⟩ := Prod.mk.inj (Option.some.inj hstep)
        exact ⟨before, rfl, hran⟩

/-- The last of several things is all of them exactly if there is no more than one. -/
lemma perm_getLast?_iff {tags : List String} :
    tags.getLast?.toList.Perm tags ↔ tags.length ≤ 1 := by
  constructor
  · intro hperm
    rw [← hperm.length_eq]
    exact Option.length_toList_le
  · intro hshort
    rcases tags with _ | ⟨tag, _ | ⟨other, tags⟩⟩
    · exact .nil
    · exact .refl _
    · simp at hshort

/-! ## What becomes of the hooks -/

/-- What becomes of the hooks of an image in a history: `image?` is what is left of the image. -/
structure Tracked (data : Bytes) (h : History) (image? : Option SourceImage) : Prop where
  /-- As long as the image is there, its bytes are the ones it came with and no hook has run. -/
  there : ∀ image, image? = some image → image.data = data ∧ h.ran = []
  /-- As long as it is there, attaching a hook runs none, -/
  attach : ∀ image, image? = some image → ∀ tag, ∃ next : SourceImage,
    step? image? (.attach tag) = some (some next, [])
  /-- and giving it back runs the hook that was attached last. -/
  giveBack : ∀ image, image? = some image →
    step? image? .giveBack = some (none, h.attached.getLast?.toList)
  /-- Once it has been given back, this is what has run, in that step, and nothing runs any more. -/
  gone : image? = none → h.ran = h.attached.getLast?.toList ∧
    (∃ before : History, h = before ++ [(.giveBack, h.ran)] ∧ before.ran = []) ∧
    ∀ s, step? image? s = none
  /-- So every hook has run exactly once if and only if there was no more than one. -/
  each : image? = none → (h.ran.Perm h.attached ↔ h.attached.length ≤ 1)

/-- Whatever is done with an image, no hook runs before it is given back, and then the one that was
attached last runs once. -/
theorem hooks_of_reached (hreach : Reached data h image?) : Tracked data h image? := by
  have hgone (hnone : image? = none) :
      ∃ before : History, h = before ++ [(.giveBack, before.attached.getLast?.toList)] ∧
        before.ran = [] := by
    subst hnone
    exact last_of_reached hreach
  have hran (hnone : image? = none) : h.ran = h.attached.getLast?.toList := by
    obtain ⟨before, rfl, hquiet⟩ := hgone hnone
    simp [hquiet, History.attached?]
  constructor
  · intro image himage
    obtain ⟨rfl, hquiet⟩ := eq_of_reached hreach himage
    exact ⟨rfl, hquiet⟩
  · rintro image rfl tag
    exact ⟨image.withHook tag, rfl⟩
  · rintro image rfl
    obtain ⟨rfl, -⟩ := eq_of_reached hreach rfl
    rfl
  · intro hnone
    obtain ⟨before, hlast, hquiet⟩ := hgone hnone
    refine ⟨hran hnone, ⟨before, ?_, hquiet⟩, fun s => by rw [hnone]; rfl⟩
    rw [hlast, History.ran_concat, hquiet, List.nil_append]
  · intro hnone
    rw [hran hnone]
    exact perm_getLast?_iff

/-- Two hooks are attached to an image, which is then given back. -/
def twoHooks : History := [(.attach "a", []), (.attach "b", []), (.giveBack, ["b"])]

lemma reached_twoHooks (data : Bytes) : Reached data twoHooks none := by
  have h₁ : Reached data [(.attach "a", [])] (some ⟨data, some "a"⟩) := .step (h := []) .start rfl
  have h₂ := h₁.step (s := .attach "b") rfl
  exact h₂.step (s := .giveBack) rfl

/-- Of two hooks the first one is lost. -/
theorem exists_lost_hook :
    ∃ (data : Bytes) (h : History), Reached data h none ∧ "a" ∈ h.attached ∧ "a" ∉ h.ran ∧
      ¬ h.ran.Perm h.attached :=
  ⟨Utf8.ofString "pixels", twoHooks, reached_twoHooks _, by decide, by decide, by decide⟩

/-- There the second one runs, and nothing else. -/
theorem hooks_of_twoHooks :
    Reached [1, 2, 3] twoHooks none ∧ Tracked [1, 2, 3] twoHooks none ∧ twoHooks.ran = ["b"] := by
  have hreach := reached_twoHooks [1, 2, 3]
  exact ⟨hreach, hooks_of_reached hreach, by decide⟩

end Gateway.SourceImage
