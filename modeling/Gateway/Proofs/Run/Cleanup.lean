import Mathlib
import Gateway.Proofs.Run.Arrival
import Gateway.Proofs.Run.Budget

/-!
# What a request leaves behind

A request takes things that have to be given back or put down once: it is counted, it may get a slot
and an image, and how it ends is logged. Whichever way it ends, it gives back each of them once, and
always in the same order (`Run.tidied_of_reachable`).

What matters of a trace for this are its effects (`Task.effects`). They are determined up to one bit by
how far the request has come: whether its image is there. `Exit` lists, for each way in which a request
can end, the effects of its whole trace in their order, and `Sofar` does the same for each place where
it can stop before.
-/

namespace Gateway

/-! ## Effects -/

/-- What a request takes, gives back or reports. -/
inductive Effect where
  /-- It is counted. -/
  | counted
  /-- It publishes the number of slots in use. -/
  | gauge
  /-- Its path is read, which is the first thing that it does with its slot. -/
  | parsed
  /-- Its image is there. -/
  | downloaded
  /-- Its image is given back. -/
  | released
  /-- The time that it took is recorded. -/
  | recorded
  /-- Its success is logged. -/
  | succeeded (status : Http.Status)
  /-- Its failure is logged. -/
  | failed (status : Http.Status)
deriving DecidableEq, Repr

/-- The effect that an event shows, if any. -/
def Event.effect? : Event → Option Effect
  | .requestCounted => some .counted
  | .slotsInUse _ => some .gauge
  | .parseCalled => some .parsed
  | .downloaded _ => some .downloaded
  | .released => some .released
  | .durationRecorded => some .recorded
  | .log (.responded status _) => some (.succeeded status)
  | .log (.failed f) => some (.failed f.status)
  | _ => none

/-- The effects of a list of events. -/
def effectsOf (es : List Event) : List Effect := es.filterMap Event.effect?

@[simp] lemma effectsOf_nil : effectsOf [] = [] :=
  rfl

@[simp] lemma effectsOf_append (xs ys : List Event) :
    effectsOf (xs ++ ys) = effectsOf xs ++ effectsOf ys :=
  List.filterMap_append

namespace Effect

/-- What is seen of an image that is there. -/
def image (img : Bool) : List Effect := if img then [.downloaded] else []

/-- What is seen of a request until its path is read. -/
def opening : List Effect := [.counted, .gauge, .parsed]

/-- What is seen when an admitted request gives back what it holds: first the image, if it is there,
then the slot, and last the time that it took. -/
def closing (img : Bool) : List Effect := (if img then [.released] else []) ++ [.gauge, .recorded]

end Effect

open Effect

/-- The effects of everything that is seen of a request. -/
def Task.effects (t : Task) : List Effect := effectsOf t.events

/-! ## Ways to end -/

/-- The ways in which a request can end, with the effects of everything that has been seen of it. -/
inductive Exit (s : Service) (job : Job) : Outcome → List Effect → Prop
  /-- It is cancelled before it arrives. -/
  | unseen : Exit s job .cancelled []
  /-- It is answered without admission, which is logged at most. -/
  | refused {finish : Nat} {r : Http.Response} {xs : List Effect}
      (hneeds : ¬ Stage.NeedsSlot s job.request)
      (hlogs : ∀ x ∈ xs, ∃ status, x = .succeeded status ∨ x = .failed status) :
      Exit s job (.response finish r) xs
  /-- It is cancelled in the line, even if a slot has been handed to it. -/
  | left (hneeds : Stage.NeedsSlot s job.request) : Exit s job .cancelled [.counted, .recorded]
  /-- It is admitted and given up. -/
  | panicked (hneeds : Stage.NeedsSlot s job.request) :
      Exit s job .panicked ([.counted, .gauge] ++ closing false)
  /-- It is cancelled while a collaborator is at work for it, and nothing is logged. -/
  | stopped (hneeds : Stage.NeedsSlot s job.request) (img : Bool) :
      Exit s job .cancelled (opening ++ image img ++ closing img)
  /-- It succeeds, and this is logged before it gives back its image and all else that it holds. -/
  | succeeded (hneeds : Stage.NeedsSlot s job.request) (finish : Nat) (r : Http.Response) :
      Exit s job (.response finish r)
        (opening ++ image true ++ ([.succeeded r.status] ++ closing true))
  /-- It fails, and this is logged after it has given back what it holds. -/
  | failed (hneeds : Stage.NeedsSlot s job.request) (img : Bool) (finish : Nat)
      (r : Http.Response) :
      Exit s job (.response finish r) (opening ++ image img ++ (closing img ++ [.failed r.status]))

/-- The effects of what has been seen of a request by the time that it stops somewhere. -/
inductive Sofar (s : Service) (job : Job) : Phase → List Effect → Prop
  | expected : Sofar s job .expected []
  | queued (hneeds : Stage.NeedsSlot s job.request) : Sofar s job .queued [.counted]
  | inside {p : Phase} {q : Pending} (hneeds : Stage.NeedsSlot s job.request)
      (hp : p.pending? = some q) : Sofar s job p (opening ++ image (Stage.hasImage q.stage))
  | ended {o : Outcome} {xs : List Effect} (hexit : Exit s job o xs) : Sofar s job (.ended o) xs

lemma Sofar.exit {s : Service} {job : Job} {o : Outcome} {xs : List Effect}
    (h : Sofar s job (.ended o) xs) : Exit s job o xs := by
  cases h with
  | inside _ hp => cases hp
  | ended hexit => exact hexit

namespace Stage

variable {s : Service} {job : Job} {now : Nat} {d : Deadline} {k : Point} {w : List Event}
  {e : Ending} {xs : List Effect}

/-- Whether the image is there at a point of the work. -/
def Point.hasImage : Point → Bool
  | .before stage => Stage.hasImage stage
  | .after stage _ => Stage.hasImage stage
  | .output => true

/-- Whether the image is there when the work of a turn ends. -/
inductive Ending.HasImage : Ending → Bool → Prop
  | waits {p : Phase} {q : Pending} (hp : p.pending? = some q) :
      HasImage (.waits p) (Stage.hasImage q.stage)
  | leaves (img : Bool) (result : Except Failure (Http.Response × LogEntry)) :
      HasImage (.leaves img result) img

/-- A call has no effect of its own. -/
lemma Asks.effect? {stage : Gateway.Stage} {x : Event} {c : Call Bytes}
    (h : Asks job now d stage x c) : x.effect? = none := by
  cases h <;> rfl

/-- The only effect of work is that the image is there afterwards and was not there before. -/
lemma Work.effects (h : Work job now d k w e) :
    ∃ img, e.HasImage img ∧ image k.hasImage ++ effectsOf w = image img := by
  induction h with
  | fails | unchanged | counts | spoils | encodes => exact ⟨_, .leaves _ _, List.append_nil _⟩
  | calls hask _ _ _ _ ih =>
    obtain ⟨img, himg, heq⟩ := ih
    refine ⟨img, himg, ?_⟩
    rw [effectsOf, List.filterMap_cons_none hask.effect?]
    exact heq
  | waits hask _ _ _ hp =>
    refine ⟨_, .waits hp, ?_⟩
    rw [effectsOf, List.filterMap_cons_none hask.effect?]
    exact List.append_nil _
  | downloaded _ _ ih | processed _ _ ih | quiet _ _ ih => exact ih

/-- A request only succeeds with its image. -/
lemma Work.image_of_success (h : Work job now d k w e) {img : Bool} {r : Http.Response}
    {entry : LogEntry} (he : e = .leaves img (.ok (r, entry))) : img = true := by
  induction h with
  | fails | counts | spoils | waits => cases he
  | calls _ _ _ _ _ ih | downloaded _ _ ih | processed _ _ ih | quiet _ _ ih => exact ih he
  | unchanged | encodes => exact (Ending.leaves.inj he).1.symm

@[simp] lemma effectsOf_departureEvents (shared : Shared) (img : Bool) :
    effectsOf (departureEvents shared img) = closing img := by
  cases img <;> rfl

/-- A request that works either keeps its slot or ends in one of the ways of admitted requests. -/
lemma Work.sofar (h : Work job now d k w e) (hneeds : NeedsSlot s job.request)
    (hxs : xs = opening ++ image k.hasImage) (shared : Shared) :
    Sofar s job (e.phase s now) (xs ++ effectsOf (w ++ e.events shared)) := by
  obtain ⟨img, himg, heq⟩ := h.effects
  have hseen : xs ++ effectsOf (w ++ e.events shared) =
      opening ++ image img ++ effectsOf (e.events shared) := by
    rw [hxs, effectsOf_append, List.append_assoc, ← List.append_assoc (image _), heq,
      ← List.append_assoc]
  rw [hseen]
  cases himg with
  | waits hp =>
    rw [Ending.events, effectsOf_nil, List.append_nil]
    exact .inside hneeds hp
  | leaves img result =>
    rcases result with f | ⟨r, entry⟩
    · have hend : effectsOf ((Ending.leaves img (.error f)).events shared) =
          closing img ++ [.failed f.status] := by
        rw [Ending.events, effectsOf_append, effectsOf_departureEvents]
        rfl
      rw [hend]
      exact .ended (.failed hneeds img now _)
    · obtain rfl := h.image_of_success rfl
      obtain ⟨-, message, rfl⟩ := h.success rfl
      exact .ended (.succeeded hneeds now _)

/-- Until a request holds its slot it has been counted and nothing else. -/
lemma Entry.effects {p : Phase} {front : List Event} (h : Entry s job p front)
    (hxs : Sofar s job p xs) : NeedsSlot s job.request ∧ xs ++ effectsOf front = [.counted] := by
  cases h with
  | arrives hneeds =>
    cases hxs with
    | expected => exact ⟨hneeds, rfl⟩
    | inside _ hp => cases hp
  | resumes =>
    cases hxs with
    | queued hneeds => exact ⟨hneeds, rfl⟩
    | inside _ hp => cases hp

/-- What has been seen of a request that waits for a collaborator. -/
lemma sofar_pending {p : Phase} {q : Pending} (hp : p.pending? = some q)
    (hxs : Sofar s job p xs) :
    NeedsSlot s job.request ∧ xs = opening ++ image (Stage.hasImage q.stage) := by
  cases hxs with
  | expected | queued | ended => cases hp
  | inside hneeds hp' =>
    obtain rfl := Option.some.inj (hp.symm.trans hp')
    exact ⟨hneeds, rfl⟩

/-- Every move adds the effects that belong to where the request stops next. -/
lemma Move.sofar {p p' : Phase} {es : List Event} (h : Move s job now p es p')
    (hxs : Sofar s job p xs) : Sofar s job p' (xs ++ effectsOf es) := by
  cases h with
  | answered hlogs hneeds =>
    cases hxs with
    | inside _ hp => cases hp
    | expected =>
      refine .ended (.refused hneeds fun x hx => ?_)
      obtain ⟨y, hy, hshows⟩ := List.mem_filterMap.mp hx
      obtain ⟨entry, rfl⟩ := hlogs y hy
      cases entry with
      | requestStarted | originIgnored => cases hshows
      | responded status => exact ⟨status, .inl (Option.some.inj hshows).symm⟩
      | failed f => exact ⟨f.status, .inr (Option.some.inj hshows).symm⟩
  | queued hneeds =>
    cases hxs with
    | inside _ hp => cases hp
    | expected => exact .queued hneeds
  | panicked hentry hstart n shared =>
    obtain ⟨hneeds, hfront⟩ := hentry.effects hxs
    have hrest : effectsOf (.slotsInUse n :: departureEvents shared false) =
        .gauge :: closing false := rfl
    rw [effectsOf_append, ← List.append_assoc, hfront, hrest]
    exact .ended (.panicked hneeds)
  | @admitted _ _ w d e hentry hstart hwork n shared =>
    obtain ⟨hneeds, hfront⟩ := hentry.effects hxs
    have hrest : effectsOf (.slotsInUse n :: .parseCalled :: (w ++ e.events shared)) =
        [.gauge, .parsed] ++ effectsOf (w ++ e.events shared) := rfl
    rw [effectsOf_append, ← List.append_assoc, hfront, hrest, ← List.append_assoc]
    exact hwork.sofar hneeds rfl shared
  | worked hp htick hwork shared =>
    obtain ⟨hneeds, rfl⟩ := sofar_pending hp hxs
    exact hwork.sofar hneeds rfl shared
  | dropped =>
    cases hxs with
    | inside _ hp => cases hp
    | expected => exact .ended .unseen
  | left =>
    cases hxs with
    | inside _ hp => cases hp
    | queued hneeds => exact .ended (.left hneeds)
  | stopped hp htick shared =>
    obtain ⟨hneeds, rfl⟩ := sofar_pending hp hxs
    rw [effectsOf_departureEvents]
    exact .ended (.stopped hneeds _)

end Stage

namespace Task

variable {s : Service} {last : Nat} {t : Task}

/-- Along its course the effects of a request agree with where it stops. -/
lemma Course.sofar (h : Course s last t) : Sofar s t.job t.phase t.effects := by
  refine moves (P := fun _ t => Sofar s t.job t.phase t.effects) (fun job => ?_)
    (fun {_ now t es p} _ ih _ hmove => ?_) h
  · exact .expected
  · rw [effects, events_moved, effectsOf_append]
    exact hmove.sofar ih

/-- A request that needs a slot and has ended has left something behind if and only if it has
arrived. -/
lemma Course.arrives_iff (h : Course s last t) {o : Outcome} (hphase : t.phase = .ended o)
    (hneeds : Stage.NeedsSlot s t.job.request) : t.job.Arrives ↔ t.effects ≠ [] := by
  cases h.arrival with
  | expected job => cases hphase
  | dropped hc hlt =>
    have hnot : ¬ Job.Arrives _ := fun harrives => Nat.not_le.mpr hlt (harrives _ hc)
    exact iff_of_false hnot fun hsome => hsome rfl
  | @arrived job i shared p rest harrives =>
    have hmem := Stage.requestCounted_mem_arrive hneeds i job.arrival shared
    refine iff_of_true harrives (List.ne_nil_of_mem (a := .counted) ?_)
    refine List.mem_filterMap.mpr ⟨.requestCounted, ?_, rfl⟩
    simp [events, hmem]

/-- A request whose path is read shows this. -/
lemma parsed_mem_effects : .parsed ∈ t.effects ↔ .parseCalled ∈ t.events := by
  rw [effects, effectsOf, List.mem_filterMap]
  constructor
  · rintro ⟨x, hx, hshows⟩
    unfold Event.effect? at hshows
    split at hshows <;> first | exact hx | cases hshows
  · intro hx
    exact ⟨_, hx, rfl⟩

end Task

/-! ## Tidy requests -/

/-- Whether a request arrives and passes the stages before admission. -/
def Job.Passes (s : Service) (job : Job) : Prop :=
  job.Arrives ∧ Stage.NeedsSlot s job.request

/-- Whether a request has been admitted: its path is read then, or the gateway gives it up. -/
def Task.IsAdmitted (t : Task) : Prop := .parseCalled ∈ t.events ∨ t.outcome? = some .panicked

namespace Run

/-- What can be said of everything that has been seen of a request once it has ended. -/
structure Tidied (s : Service) (t : Task) (o : Outcome) : Prop where
  /-- Its image is given back if there is one, and there is at most one. -/
  image : t.effects.count .released = t.effects.count .downloaded ∧
    t.effects.count .downloaded ≤ 1
  /-- A request that passes the first stages is counted once, and its time is recorded once. -/
  passed : t.job.Passes s → t.effects.count .counted = 1 ∧ t.effects.count .recorded = 1
  /-- Any other request is not counted, and its time is not recorded. -/
  not_passed : ¬ t.job.Passes s → t.effects.count .counted = 0 ∧ t.effects.count .recorded = 0
  /-- A request that is admitted publishes the number of slots then and when it leaves. -/
  admitted : t.IsAdmitted → t.job.Passes s ∧ t.effects.count .gauge = 2
  /-- Any other request does not publish it. -/
  not_admitted : ¬ t.IsAdmitted → t.effects.count .gauge = 0
  /-- All effects come in the order that belongs to the way in which the request has ended. -/
  exit : Exit s t.job o t.effects

end Run

namespace Exit

variable {s : Service} {job : Job} {o : Outcome} {xs : List Effect}

/-- A request that is answered without admission has no effect but the entry of the log. -/
lemma count_of_refused (hlogs : ∀ x ∈ xs, ∃ status, x = Effect.succeeded status ∨ x = .failed status)
    {x : Effect} (hx : ∀ status, x ≠ .succeeded status ∧ x ≠ .failed status) : xs.count x = 0 := by
  rw [List.count_eq_zero]
  intro hmem
  obtain ⟨status, h | h⟩ := hlogs x hmem
  · exact (hx status).1 h
  · exact (hx status).2 h

/-- However a request ends, its image is given back if there is one. -/
lemma count_image (h : Exit s job o xs) :
    xs.count .released = xs.count .downloaded ∧ xs.count .downloaded ≤ 1 := by
  cases h with
  | unseen | left | panicked => decide
  | refused _ hlogs =>
    rw [count_of_refused hlogs (by simp), count_of_refused hlogs (by simp)]
    exact ⟨rfl, Nat.zero_le 1⟩
  | succeeded => simp [opening, Effect.image, closing]
  | stopped _ img | failed _ img => cases img <;> simp [opening, Effect.image, closing]

/-- However a request ends that needs a slot, it is counted once and its time is recorded once, if
anything happens to it at all. -/
lemma count_passed (h : Exit s job o xs) (hneeds : Stage.NeedsSlot s job.request) (hxs : xs ≠ []) :
    xs.count .counted = 1 ∧ xs.count .recorded = 1 := by
  cases h with
  | unseen => exact absurd rfl hxs
  | refused hnot => exact absurd hneeds hnot
  | left | panicked => decide
  | succeeded => simp [opening, Effect.image, closing]
  | stopped _ img | failed _ img => cases img <;> simp [opening, Effect.image, closing]

/-- A request that needs no slot is neither counted nor timed. -/
lemma count_not_passed (h : Exit s job o xs) (hnot : ¬ Stage.NeedsSlot s job.request) :
    xs.count .counted = 0 ∧ xs.count .recorded = 0 := by
  cases h with
  | unseen => decide
  | refused _ hlogs => exact ⟨count_of_refused hlogs (by simp), count_of_refused hlogs (by simp)⟩
  | left hneeds | panicked hneeds | stopped hneeds | succeeded hneeds | failed hneeds =>
    exact absurd hneeds hnot

/-- A request that is admitted needed a slot, and it publishes the number of slots twice. -/
lemma count_admitted (h : Exit s job o xs) (hin : .parsed ∈ xs ∨ o = .panicked) :
    Stage.NeedsSlot s job.request ∧ xs ≠ [] ∧ xs.count .gauge = 2 := by
  cases h with
  | unseen | left => simp at hin
  | refused _ hlogs =>
    have hmem := hin.resolve_right (by simp)
    obtain ⟨status, h | h⟩ := hlogs _ hmem <;> cases h
  | panicked hneeds => exact ⟨hneeds, by simp, by decide⟩
  | succeeded hneeds => exact ⟨hneeds, by simp [opening], by simp [opening, Effect.image, closing]⟩
  | stopped hneeds img | failed hneeds img =>
    refine ⟨hneeds, by simp [opening], ?_⟩
    cases img <;> simp [opening, Effect.image, closing]

/-- A request that is not admitted does not publish the number of slots. -/
lemma count_not_admitted (h : Exit s job o xs) (hout : ¬ (.parsed ∈ xs ∨ o = .panicked)) :
    xs.count .gauge = 0 := by
  cases h with
  | unseen | left => decide
  | refused _ hlogs => exact count_of_refused hlogs (by simp)
  | panicked => exact absurd (.inr rfl) hout
  | stopped | succeeded | failed => exact absurd (.inl (by simp [opening])) hout

end Exit

namespace Run

/-- Every request that has ended in a run has left everything tidy, whichever way it has ended. -/
theorem tidied_of_reachable {s : Service} {jobs : List Job} {r : Run} (hreach : Reachable s jobs r)
    {t : Task} (ht : t ∈ r.tasks) {o : Outcome} (ho : t.outcome? = some o) : Tidied s t o := by
  obtain ⟨last, -, hcourse⟩ := hreach.sound.course t ht
  have hphase := Task.outcome?_eq_some_iff.mp ho
  have hexit : Exit s t.job o t.effects := (hphase ▸ hcourse.sofar).exit
  have hadmitted : t.IsAdmitted ↔ .parsed ∈ t.effects ∨ o = .panicked := by
    rw [Task.IsAdmitted, ho, Task.parsed_mem_effects, Option.some.injEq]
  refine ⟨hexit.count_image, fun hpasses => ?_, fun hnot => ?_, fun hin => ?_, fun hout => ?_,
    hexit⟩
  · obtain ⟨harrives, hneeds⟩ := hpasses
    exact hexit.count_passed hneeds ((hcourse.arrives_iff hphase hneeds).mp harrives)
  · by_cases hneeds : Stage.NeedsSlot s t.job.request
    · have harrives : ¬ t.job.Arrives := fun harrives => hnot ⟨harrives, hneeds⟩
      rw [hcourse.arrives_iff hphase hneeds, not_not] at harrives
      rw [harrives]
      exact ⟨rfl, rfl⟩
    · exact hexit.count_not_passed hneeds
  · obtain ⟨hneeds, hsome, hcount⟩ := hexit.count_admitted (hadmitted.mp hin)
    exact ⟨⟨(hcourse.arrives_iff hphase hneeds).mpr hsome, hneeds⟩, hcount⟩
  · exact hexit.count_not_admitted (mt hadmitted.mpr hout)

/-- One request times out before its image is there, and the one that has waited for its slot is served:
it gives back its image, and its success has been logged before. -/
theorem tidied_of_rivals :
    let s := Service.ofConfig oneSlot 0
    let r := serve s rivals 20000
    (∃ t ∈ r.tasks, ∃ o, Tidied s t o ∧
      t.effects = [.counted, .gauge, .parsed, .gauge, .recorded, .failed .unavailable]) ∧
    ∃ t ∈ r.tasks, ∃ o, Tidied s t o ∧
      t.effects = [.counted, .gauge, .parsed, .downloaded, .succeeded .ok, .released, .gauge,
        .recorded] := by
  intro s r
  have hreach : Reachable s rivals r := reachable_serve _ _ _
  have hfirst : (r.tasks[0]?.bind fun t => t.outcome?.map fun _ => t.effects) =
      some [.counted, .gauge, .parsed, .gauge, .recorded, .failed .unavailable] := by
    decide +kernel
  have hsecond : (r.tasks[1]?.bind fun t => t.outcome?.map fun _ => t.effects) =
      some [.counted, .gauge, .parsed, .downloaded, .succeeded .ok, .released, .gauge,
        .recorded] := by
    decide +kernel
  obtain ⟨t, ht, hseen⟩ := Option.bind_eq_some_iff.mp hfirst
  obtain ⟨o, ho, heffects⟩ := Option.map_eq_some_iff.mp hseen
  obtain ⟨u, hu, hseen'⟩ := Option.bind_eq_some_iff.mp hsecond
  obtain ⟨o', ho', heffects'⟩ := Option.map_eq_some_iff.mp hseen'
  have ht := List.mem_of_getElem? ht
  have hu := List.mem_of_getElem? hu
  exact ⟨⟨t, ht, o, tidied_of_reachable hreach ht ho, heffects⟩,
    u, hu, o', tidied_of_reachable hreach hu ho', heffects'⟩

end Run

end Gateway
