import Mathlib
import Gateway.Net.Listener
import Gateway.Proofs.Config.Accepted
import Gateway.Proofs.Run.Budget

/-!
# What an accepted configuration is good for

A configuration is accepted when its settings are in range (`Config.inRange_of_accepted`). Three of the
ranges have no upper end, and there the platform has limits of its own: there can only be so many slots
and connections, and a deadline has to be in the range of the clock. A configuration beyond those limits
is accepted all the same, and the gateway fails with it when it starts or as soon as it admits a request
(`Run.exists_panicked_of_accepted`).

Within the limits nothing can go wrong. The gateway starts, and a request that ends has been answered,
unless its client has cancelled it; it is only given up if the clock has come so near to its end that
the deadline would lie past it (`Run.survives_of_accepted`).
-/

namespace Gateway

/-! ## Endings -/

namespace Stage

variable {s : Service} {job : Job} {i now : Nat} {shared : Shared} {o : Outcome}

/-- A request that ends on its admission is answered, or its deadline is out of the range of the
clock. -/
lemma admitted_ends (h : (admitted s job i now shared).phase = .ended o) :
    (∃ resp, o = .response now resp) ∨ o = .panicked := by
  rcases hstart : Deadline.start? (instantOf now) s.writeTimeout with _ | d
  · rw [admitted_panics hstart] at h
    exact .inr (Phase.ended.inj h).symm
  · obtain ⟨w, e, hwork, hturn⟩ := @admitted_works s job now d hstart
    obtain ⟨pool, heq⟩ := hturn i shared
    rw [heq] at h
    exact .inl (hwork.exists_response h)

/-- A request that ends on its arrival is answered, or its deadline is out of the range of the clock. -/
lemma arrive_ends (h : (arrive s job i now shared).phase = .ended o) :
    (∃ resp, o = .response now resp) ∨ o = .panicked := by
  by_cases hneeds : NeedsSlot s job.request
  · rw [arrive_of_needsSlot hneeds, Turn.after_phase] at h
    by_cases hholds : i ∈ (shared.admission.arrive i).holders
    · rw [requestSlot_of_holds hholds, Turn.after_phase] at h
      exact admitted_ends h
    · rw [requestSlot_of_not_holds hholds] at h
      cases h
  · obtain ⟨es, r, -, harrive⟩ := arrive_of_not_needsSlot hneeds now
    rw [harrive] at h
    exact .inl ⟨_, (Phase.ended.inj h).symm⟩

/-- A request that is given up has published the number of slots. -/
lemma Move.gauge_of_panicked {p p' : Phase} {es : List Event} (h : Move s job now p es p')
    (hp : p' = .ended .panicked) : es.countP Event.isGauge ≠ 0 := by
  have hgoes {d : Deadline} {k : Point} {w : List Event} {e : Ending} (hwork : Work job now d k w e)
      (hphase : e.phase s now = .ended .panicked) : False := by
    obtain ⟨resp, hresp⟩ := hwork.exists_response hphase
    cases hresp
  cases h with
  | answered | queued | dropped | left | stopped => cases hp
  | panicked => simp [Event.isGauge]
  | admitted _ _ hwork => exact (hgoes hwork hp).elim
  | worked _ _ hwork => exact (hgoes hwork hp).elim

end Stage

namespace Task

variable {s : Service} {last : Nat} {t : Task} {o : Outcome}

/-- How a request can have ended. -/
inductive Ended (s : Service) (t : Task) : Outcome → Prop
  | answered (finish : Nat) (resp : Http.Response) : Ended s t (.response finish resp)
  /-- Its client has gone away. -/
  | cancelled {c : Nat} (hcancel : t.job.cancelAt = some c) : Ended s t .cancelled
  /-- Its deadline is out of the range of the clock. -/
  | givenUp {grant : Nat} (hgrant : t.grantTime? = some grant)
      (hstart : Deadline.start? (instantOf grant) s.writeTimeout = none) : Ended s t .panicked

/-- Only a cancellation makes a request end as cancelled. -/
lemma Takes.cancelAt_of_cancelled {now i : Nat} {shared : Shared} {turn : Turn}
    (h : t.Takes s now i shared turn) (ht : Course s last t)
    (hphase : turn.phase = .ended .cancelled) : t.job.cancelAt = some now := by
  cases h with
  | fires htimer =>
    exfalso
    rcases phase_of_fires htimer with ⟨hexpected, -⟩ | ⟨q, hq, -⟩
    · rw [hexpected] at hphase
      rcases Stage.arrive_ends hphase with ⟨resp, hresp⟩ | hpanicked
      · cases hresp
      · cases hpanicked
    · obtain ⟨w, e, hwork, pool, heq⟩ := ht.works hq now i shared
      rw [heq] at hphase
      obtain ⟨resp, hresp⟩ := hwork.exists_response hphase
      cases hresp
  | cancels htimer => exact (phase_of_cancels htimer).2.1
  | resumes =>
    exfalso
    rcases Stage.admitted_ends hphase with ⟨resp, hresp⟩ | hpanicked
    · cases hresp
    · cases hpanicked

/-- Along its course a request ends in one of three ways. -/
lemma Course.ended (h : Course s last t) (hphase : t.phase = .ended o) : Ended s t o := by
  cases o with
  | response finish resp => exact .answered finish resp
  | cancelled =>
    cases h with
    | expected job => cases hphase
    | turn ht hle hfit htakes => exact .cancelled (htakes.cancelAt_of_cancelled ht hphase)
  | panicked =>
    have hvisit : t.visit ≠ [] := by
      cases h with
      | expected job => cases hphase
      | turn ht hle hfit htakes =>
        have hgauge := (htakes.move hfit fun _ hq => ht.awaits hq).1.gauge_of_panicked hphase
        rw [Ne, visit_eq_nil_iff, after, events_moved, List.countP_append]
        omega
    obtain ⟨grant, hgrant⟩ := Option.ne_none_iff_exists'.mp (mt grantTime?_eq_none_iff.mp hvisit)
    rcases (h.stay hgrant).start_cases with ⟨hstart, -, -⟩ | ⟨-, hne⟩
    · exact .givenUp hgrant hstart
    · exact absurd hphase hne

end Task

/-- A deadline of whole milliseconds cannot start exactly when its end is past the range of the
clock. -/
lemma Deadline.start?_eq_none_iff {grant budget : Nat} :
    start? (instantOf grant) (.ofMillis budget) = none ↔ clockEnd ≤ instantOf (grant + budget) := by
  rw [start?, nanos_ofMillis, ← instantOf_add]
  split
  · next hlt => simpa using hlt
  · next hge => simpa using hge

namespace Run

/-- What an accepted configuration within the limits of the platform promises to a request, at any point
of a run. -/
structure Survives (c : Config) (t : Task) : Prop where
  /-- It is given up exactly if it has been admitted so late that its deadline is past the range of the
  clock. -/
  panicked_iff : t.outcome? = some .panicked ↔
    ∃ grant, t.grantTime? = some grant ∧ Deadline.clockEnd ≤ instantOf (grant + c.budget)
  /-- If it has ended and has not been cancelled, it has been answered, whatever the collaborators have
  done. -/
  answered : t.hasEnded = true → t.job.cancelAt = none →
    (∀ grant, t.grantTime? = some grant → instantOf (grant + c.budget) < Deadline.clockEnd) →
    ∃ finish resp, t.outcome? = some (.response finish resp)

/-- With an accepted configuration whose connections are within the limits of the platform, the gateway
starts, and each request that ends has been answered, cancelled by its client, or admitted at the very
end of the clock. -/
theorem survives_of_accepted {c : Config} (haccepted : c.Accepted)
    (hconnections : c.listener.maxConnections ≤ Admission.capacityLimit) (epoch : Nat) :
    (Service.ofConfig c epoch).isPossible = true ∧
      (∀ l, Listener.bind c.listener = .ok l → l.isPossible = true) ∧
      ∀ jobs r, Reachable (.ofConfig c epoch) jobs r → ∀ t ∈ r.tasks, Survives c t := by
  have hrange := Config.inRange_of_accepted haccepted
  refine ⟨?_, fun l hl => ?_, fun jobs r hreach t ht => ?_⟩
  · have hslots : c.processing.concurrency ≤ Admission.capacityLimit :=
      hrange.concurrency_lt.le.trans hconnections
    exact decide_eq_true hslots
  · unfold Listener.bind at hl
    split at hl
    · cases hl
    · split at hl
      · obtain rfl := Except.ok.inj hl
        exact decide_eq_true hconnections
      · cases hl
  · obtain ⟨last, -, hcourse⟩ := hreach.sound.course t ht
    have hlimit := Service.writeTimeout_ofConfig c epoch
    have hpanicked : t.outcome? = some .panicked ↔
        ∃ grant, t.grantTime? = some grant ∧ Deadline.clockEnd ≤ instantOf (grant + c.budget) := by
      rw [Task.outcome?_eq_some_iff]
      constructor
      · intro hphase
        cases hcourse.ended hphase with
        | @givenUp grant hgrant hstart =>
          rw [hlimit, Deadline.start?_eq_none_iff] at hstart
          exact ⟨grant, hgrant, hstart⟩
      · rintro ⟨grant, hgrant, hlate⟩
        rcases (hcourse.stay hgrant).start_cases with ⟨-, hphase, -⟩ | ⟨⟨d, hstart⟩, -⟩
        · exact hphase
        · rw [hlimit, Deadline.start?_eq_none_iff.mpr hlate] at hstart
          cases hstart
    refine ⟨hpanicked, fun hended hcancel hinside => ?_⟩
    obtain ⟨o, hphase⟩ := Task.hasEnded_iff.mp hended
    have ho : t.outcome? = some o := Task.outcome?_eq_some_iff.mpr hphase
    cases hcourse.ended hphase with
    | answered finish resp => exact ⟨finish, resp, ho⟩
    | cancelled hcancelled =>
      rw [hcancel] at hcancelled
      cases hcancelled
    | givenUp =>
      obtain ⟨grant, hgrant, hlate⟩ := hpanicked.mp ho
      exact absurd (hinside grant hgrant) (Nat.not_lt.mpr hlate)

/-- The small configuration is accepted, and whatever becomes of its two requests, they survive. -/
theorem survives_of_rivals : oneSlot.Accepted ∧
    ∀ t ∈ (serve (.ofConfig oneSlot 0) rivals 20000).tasks, Survives oneSlot t := by
  have haccepted : oneSlot.Accepted := .inl rfl
  obtain ⟨-, -, hsurvives⟩ := survives_of_accepted haccepted (by decide) 0
  exact ⟨haccepted, hsurvives rivals _ (reachable_serve _ _ _)⟩

/-! ## Beyond the limits -/

/-- A configuration whose deadlines are as long as the clock goes. -/
def longWait : Config := { Config.standard 1 with timeouts := ⟨10, 9223372036854775807⟩ }

/-- A configuration with one slot more than there can be. -/
def crowd : Config :=
  { Config.standard 1 with
    listener := ⟨"0.0.0.0:8080", 2305843009213693953⟩
    processing := ⟨2305843009213693952⟩ }

/-- A configuration can be accepted, and still the gateway gives up the first request that it admits, or
does not start. -/
theorem exists_panicked_of_accepted :
    (longWait.Accepted ∧
      ∃ t ∈ (serve (.ofConfig longWait 0) [imageJob 0 ⟨some 5, .ok [1]⟩] 20).tasks,
        t.outcome? = some .panicked) ∧
    crowd.Accepted ∧ (Service.ofConfig crowd 0).isPossible = false := by
  have hwait : Config.parse 1 "timeouts.write_secs = 9223372036854775807" = .ok longWait := by
    decide +kernel
  have hcrowd : Config.parse 1 ("processing.concurrency = 2305843009213693952\n" ++
      "listener.max_connections = 2305843009213693953") = .ok crowd := by
    decide +kernel
  refine ⟨⟨.inr ⟨1, _, hwait⟩, ?_⟩, .inr ⟨1, _, hcrowd⟩, by decide⟩
  have hended : (serve (.ofConfig longWait 0) [imageJob 0 ⟨some 5, .ok [1]⟩] 20).tasks[0]?.bind
      Task.outcome? = some .panicked := by rfl
  obtain ⟨t, ht, ho⟩ := Option.bind_eq_some_iff.mp hended
  exact ⟨t, List.mem_of_getElem? ht, ho⟩

end Run

end Gateway
