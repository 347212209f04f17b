import Mathlib
import Gateway.Proofs.Run.Lockstep
import Gateway.Proofs.Run.Success
import Gateway.Proofs.Stage.Permission

/-!
# One permission for all responses

Two gateways that differ only in the configured origin serve all requests alike: every request ends at the
same time and in the same way, with the same status, the same body and the same fields apart from the
permission, and the same is seen of it on the way (`Run.Uniform`). The permission itself depends on the
configured origin and on nothing else, so that it is the same for every kind of response
(`Access.CrossOrigin.Grants`). `Run.uniform_of_origins` says both.

The two runs go in lockstep. At every point their requests come of the same requests, by putting the one
or the other permission into the responses that have been given (`Task.Bears`).
-/

namespace Gateway

open Access (CrossOrigin)

/-! ## Requests under two permissions -/

namespace Task

/-- A request with a permission put into its response, if it has one. -/
def permit (c : CrossOrigin) (t : Task) : Task := { t with phase := t.phase.permit c }

/-- Two requests come of the same one when two permissions are put into its response. -/
def Bears (c c' : CrossOrigin) (t t' : Task) : Prop :=
  ∃ u : Task, u.phase.Free ∧ t = u.permit c ∧ t' = u.permit c'

lemma timer?_permit (c : CrossOrigin) (t : Task) : (t.permit c).timer? = t.timer? := by
  obtain ⟨job, phase, trace⟩ := t
  cases phase <;> rfl

/-- A turn that bears the permission keeps the requests of one origin. -/
lemma pairs_of_bears {c c' : CrossOrigin} {u : Task} {turn : CrossOrigin → Turn}
    (h : Turn.Bears turn) :
    Turn.Pairs (Bears c c') (u.permit c) (u.permit c') (turn c) (turn c') := by
  obtain ⟨b, hfree, hturn⟩ := h
  constructor
  · rw [hturn c, hturn c']
    rfl
  · intro now
    rw [hturn c, hturn c']
    exact ⟨u.after now b, hfree, rfl, rfl⟩

/-- Under two permissions requests go the same way. -/
lemma kept_bears (s : Service) (c c' : CrossOrigin) :
    Kept (s.withPermission c) (s.withPermission c') (Bears c c') where
  timer? h := by
    obtain ⟨u, -, rfl, rfl⟩ := h
    rw [timer?_permit, timer?_permit]
  fire h i now shared := by
    obtain ⟨u, hfree, rfl, rfl⟩ := h
    exact pairs_of_bears (Stage.bears_fire hfree)
  cancel h i shared := by
    obtain ⟨u, hfree, rfl, rfl⟩ := h
    exact pairs_of_bears (Stage.bears_cancel hfree)
  resume h i now shared := by
    obtain ⟨u, -, rfl, rfl⟩ := h
    exact pairs_of_bears Stage.bears_resume

/-- Before it arrives a request has no response. -/
lemma bears_ofJob (c c' : CrossOrigin) (jobs : List Job) :
    List.Forall₂ (fun job job' => Bears c c' (.ofJob job) (.ofJob job')) jobs jobs := by
  rw [List.forall₂_same]
  intro job _
  exact ⟨.ofJob job, by simp [Phase.Free, ofJob], rfl, rfl⟩

end Task

/-! ## Runs under two permissions -/

/-- An ending with the fields of its response that belong to no permission. -/
def Outcome.withoutPermission : Outcome → Outcome
  | .response finish r => .response finish { r with fields := CrossOrigin.others r.fields }
  | o => o

/-- Whatever permission is put into a response, the rest of it stays the same. -/
lemma Outcome.withoutPermission_permit (c : CrossOrigin) (o : Outcome) :
    (o.permit c).withoutPermission = o.withoutPermission := by
  cases o with
  | response finish r =>
    simp only [permit, withoutPermission, CrossOrigin.others_apply]
  | cancelled | panicked => rfl

/-- What is known of the outcome of a request without the permission. -/
def Task.plainOutcome? (t : Task) : Option Outcome := t.outcome?.map Outcome.withoutPermission

lemma Task.plainOutcome?_permit (c : CrossOrigin) (t : Task) :
    (t.permit c).plainOutcome? = t.plainOutcome? := by
  obtain ⟨job, phase, trace⟩ := t
  cases phase with
  | expected | queued | downloading | processing => rfl
  | ended o => exact congrArg some (o.withoutPermission_permit c)

/-- A configuration with another origin. -/
def Config.withOrigin (c : Config) (origin : Option String) : Config :=
  { c with security := { c.security with allowOrigin := origin } }

namespace Run

/-- Nothing but the permission in the responses tells two runs apart. -/
structure Uniform (r r' : Run) : Prop where
  clock : r.clock = r'.clock
  /-- The slots and the buffers are in the same state. -/
  shared : r.shared = r'.shared
  /-- Each request has ended at the same time and in the same way, with the same status, body and fields
  apart from the permission, or is still under way in both. -/
  outcomes : r.tasks.map Task.plainOutcome? = r'.tasks.map Task.plainOutcome?
  /-- The same has been seen of each request at the same times. -/
  traces : r.tasks.map Task.trace = r'.tasks.map Task.trace

/-- Runs whose requests only differ in the permission differ in nothing else. -/
lemma uniform_of_lockstep {c c' : CrossOrigin} {r r' : Run} (h : Lockstep (Task.Bears c c') r r') :
    Uniform r r' where
  clock := h.clock
  shared := h.shared
  outcomes := by
    refine map_eq_of_forall₂ h.tasks ?_
    rintro _ _ ⟨u, -, rfl, rfl⟩
    rw [Task.plainOutcome?_permit, Task.plainOutcome?_permit]
  traces := by
    refine map_eq_of_forall₂ h.tasks ?_
    rintro _ _ ⟨u, -, rfl, rfl⟩
    rfl

/-- In every run under a permission, the responses are those of requests that know of none. -/
lemma Reachable.exists_free {s : Service} {c : CrossOrigin} {jobs : List Job} {r : Run}
    (hr : Reachable (s.withPermission c) jobs r) {t : Task} (ht : t ∈ r.tasks) :
    ∃ u : Task, u.phase.Free ∧ t = u.permit c := by
  obtain ⟨r', -, h⟩ := hr.lockstep (Task.kept_bears s c c) rfl (Task.bears_ofJob c c jobs)
  obtain ⟨k, hk⟩ := List.mem_iff_getElem?.mp ht
  obtain ⟨-, -, u, hfree, rfl, -⟩ := exists_of_forall₂ h.tasks hk
  exact ⟨u, hfree, rfl⟩

/-- In every run each response has the permission of the configured origin, and no other. -/
lemma Reachable.grants {s : Service} {origin : Option String} {jobs : List Job} {r : Run}
    (hr : Reachable (s.withPermission (.ofConfig origin)) jobs r) {t : Task} (ht : t ∈ r.tasks)
    {finish : Nat} {response : Http.Response}
    (houtcome : t.outcome? = some (.response finish response)) :
    CrossOrigin.Grants origin response.fields := by
  obtain ⟨⟨job, phase, trace⟩, hfree, rfl⟩ := hr.exists_free ht
  cases phase with
  | expected | queued | downloading | processing => cases houtcome
  | ended o =>
    cases o with
    | response finish' r' =>
      cases houtcome
      exact CrossOrigin.grants_apply (hfree finish r' rfl)
    | cancelled | panicked => cases houtcome

/-- The configured origin decides about the permission and about nothing else: requests are served alike
by two gateways that differ only in it, whatever happens in which order, and every response has the
permission for it. -/
theorem uniform_of_origins (c c' : Config) (hrest : c.withOrigin none = c'.withOrigin none)
    (epoch : Nat) :
    (∀ jobs horizon, Uniform (serve (.ofConfig c epoch) jobs horizon)
      (serve (.ofConfig c' epoch) jobs horizon)) ∧
    (∀ jobs r, Reachable (.ofConfig c epoch) jobs r → ∃ r', Reachable (.ofConfig c' epoch) jobs r' ∧
      Uniform r r' ∧ ∀ horizon, r.StoppedAt horizon ↔ r'.StoppedAt horizon) ∧
    ∀ jobs r, Reachable (.ofConfig c epoch) jobs r → ∀ t ∈ r.tasks, ∀ finish response,
      t.outcome? = some (.response finish response) →
        CrossOrigin.Grants c.security.allowOrigin response.fields := by
  -- both gateways are the one without an origin, each with its own permission
  let s : Service := .ofConfig (c.withOrigin none) epoch
  have hs : Service.ofConfig c epoch = s.withPermission (.ofConfig c.security.allowOrigin) := rfl
  have hs' : Service.ofConfig c' epoch = s.withPermission (.ofConfig c'.security.allowOrigin) := by
    have hbase : s = .ofConfig (c'.withOrigin none) epoch := by
      rw [← hrest]
    rw [hbase]
    rfl
  have hkept := Task.kept_bears s (.ofConfig c.security.allowOrigin)
    (.ofConfig c'.security.allowOrigin)
  rw [hs, hs']
  refine ⟨?_, ?_, ?_⟩
  · intro jobs horizon
    exact uniform_of_lockstep (lockstep_serve hkept rfl (Task.bears_ofJob _ _ jobs) horizon)
  · intro jobs r hr
    obtain ⟨r', hr', h⟩ := hr.lockstep hkept rfl (Task.bears_ofJob _ _ jobs)
    exact ⟨r', hr', uniform_of_lockstep h, fun horizon => h.stoppedAt_iff hkept⟩
  · intro jobs r hr t ht finish response houtcome
    exact hr.grants ht houtcome

/-- A configuration that names an origin. -/
def namingConfig : Config := oneSlot.withOrigin (some "https://a.example")

/-- A configuration whose origin is no legal field value. -/
def spoiltConfig : Config := oneSlot.withOrigin (some "https://a\nb")

/-- A request that times out and the one that gets its slot are served alike whether the origin can be
named or not. If it can, both responses name it, and otherwise none does. -/
theorem uniform_of_rivals :
    let r := serve (.ofConfig namingConfig 0) rivals 20000
    let r' := serve (.ofConfig spoiltConfig 0) rivals 20000
    let origins := fun response : Http.Response =>
      Http.Fields.values "access-control-allow-origin" response.fields
    namingConfig.withOrigin none = spoiltConfig.withOrigin none ∧ Uniform r r' ∧
      (∃ t ∈ r.tasks, ∃ response, t.outcome? = some (.response 10000 response) ∧
        response.status = .unavailable ∧ origins response = [Utf8.ofString "https://a.example"]) ∧
      (∃ t ∈ r.tasks, ∃ response, t.outcome? = some (.response 10005 response) ∧
        response.status = .ok ∧ origins response = [Utf8.ofString "https://a.example"]) ∧
      ∃ t ∈ r'.tasks, ∃ response, t.outcome? = some (.response 10005 response) ∧
        response.status = .ok ∧ origins response = [] := by
  intro r r' origins
  have hrest : namingConfig.withOrigin none = spoiltConfig.withOrigin none := rfl
  obtain ⟨hserve, -, hgrants⟩ := uniform_of_origins namingConfig spoiltConfig hrest 0
  obtain ⟨-, -, hgrants'⟩ := uniform_of_origins spoiltConfig namingConfig hrest.symm 0
  have hnamed : CrossOrigin.Nameable (some "https://a.example") "https://a.example" :=
    ⟨rfl, by decide, by decide +kernel⟩
  have hunnamed : ∀ o, ¬ CrossOrigin.Nameable (some "https://a\nb") o := by
    rintro o ⟨heq, -, hvalue⟩
    obtain rfl := Option.some.inj heq
    exact absurd hvalue (by decide +kernel)
  obtain ⟨t, late, ht, hlate, hstatus⟩ :=
    @exists_of_answer r 0 10000 .unavailable (by decide +kernel)
  obtain ⟨u, image, hu, himage, hstatus'⟩ := @exists_of_answer r 1 10005 .ok (by decide +kernel)
  obtain ⟨u', image', hu', himage', hstatus''⟩ :=
    @exists_of_answer r' 1 10005 .ok (by decide +kernel)
  have ht := List.mem_of_getElem? ht
  have hu := List.mem_of_getElem? hu
  have hu' := List.mem_of_getElem? hu'
  refine ⟨hrest, hserve rivals 20000, ⟨t, ht, late, hlate, hstatus, ?_⟩,
    ⟨u, hu, image, himage, hstatus', ?_⟩, u', hu', image', himage', hstatus'', ?_⟩
  · exact ((hgrants rivals r (reachable_serve _ _ _) t ht 10000 late hlate).named _ hnamed).1
  · exact ((hgrants rivals r (reachable_serve _ _ _) u hu 10005 image himage).named _ hnamed).1
  · exact ((hgrants' rivals r' (reachable_serve _ _ _) u' hu' 10005 image' himage').unnamed
      hunnamed).1

end Run

end Gateway
