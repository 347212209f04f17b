import Mathlib
import Gateway.Proofs.Run.Reachable
import Gateway.Proofs.Stage.Shortcut

/-!
# How requests begin

Before its arrival nothing is seen of a request. It may be cancelled before, and then nothing is ever
seen of it; otherwise its trace begins with what its arrival shows (`Task.Course.arrival`).

For a request that is answered without admission this is all. `Task.Brief` lists the places where it
can stand at some time of a run, with everything that has been seen of it. Nothing in this list
depends on the other requests, so that two runs which stop at the same time leave it in the same place
(`Task.Brief.unique`).
-/

namespace Gateway

/-- Whether a request arrives before it is cancelled; at one time, it arrives first. -/
def Job.Arrives (job : Job) : Prop := ∀ c, job.cancelAt = some c → job.arrival ≤ c

namespace Task

variable {s : Service} {last now i : Nat} {shared : Shared} {t : Task} {turn : Turn}

/-! ## Arrivals -/

/-- A request that has ended takes no more turns. -/
lemma Takes.not_ended (h : t.Takes s now i shared turn) (o : Outcome) : t.phase ≠ .ended o := by
  intro hphase
  cases h with
  | fires htimer =>
    rcases phase_of_fires htimer with ⟨hexpected, -⟩ | ⟨q, hq, -⟩
    · cases hphase.symm.trans hexpected
    · rw [hphase] at hq
      cases hq
  | cancels htimer => exact (phase_of_cancels htimer).1 o hphase
  | resumes hqueued => cases hphase.symm.trans hqueued

/-- How a request can have begun by a millisecond. -/
inductive Arrival (s : Service) (now : Nat) : Task → Prop
  /-- It has not arrived. -/
  | expected (job : Job) : Arrival s now (.ofJob job)
  /-- It has been cancelled before its arrival. -/
  | dropped {job : Job} {c : Nat} (hc : job.cancelAt = some c) (hlt : c < job.arrival)
      (hle : c ≤ now) : Arrival s now ⟨job, .ended .cancelled, []⟩
  /-- It has arrived, and it has gone on from there unless it was answered at once. -/
  | arrived {job : Job} {i : Nat} {shared : Shared} {p : Phase} {rest : List (Nat × Event)}
      (harrives : job.Arrives) (hle : job.arrival ≤ now)
      (hended : ∀ o, (Stage.arrive s job i job.arrival shared).phase = .ended o →
        p = .ended o ∧ rest = []) :
      Arrival s now ⟨job, p, ((Stage.arrive s job i job.arrival shared).events.map
        fun x => (job.arrival, x)) ++ rest⟩

/-- A request begins with its arrival or is cancelled before. -/
lemma Course.arrival (h : Course s last t) : Arrival s last t := by
  induction h with
  | expected job => exact .expected job
  | @turn last now i shared t turn ht hle hfit htakes ih =>
    cases ih with
    | expected job =>
      cases htakes with
      | fires htimer =>
        rcases timer?_eq_some_iff.mp htimer with ⟨hown, -, hcancel⟩ | ⟨-, hcancels, -⟩
        · obtain rfl : job.arrival = now := Option.some.inj hown
          have harrives : job.Arrives := by
            intro c hc
            exact hcancel c (cancelTime?_eq_some_iff.mpr ⟨fun o ho => (by cases ho), hc⟩)
          have harrived := @Arrival.arrived s _ job i shared
            (Stage.arrive s job i job.arrival shared).phase [] harrives le_rfl
            fun o ho => ⟨ho, rfl⟩
          rwa [List.append_nil] at harrived
        · cases hcancels
      | cancels htimer =>
        obtain ⟨-, hcancel, hlt⟩ := phase_of_cancels htimer
        exact .dropped hcancel (hlt job.arrival rfl) le_rfl
      | resumes hqueued => cases hqueued
    | dropped => exact absurd rfl (htakes.not_ended _)
    | @arrived job j first p rest harrives harrival hended =>
      -- the request takes a turn, so that it has not been answered at once
      have hopen : ∀ o, (Stage.arrive s job j job.arrival first).phase ≠ .ended o := by
        intro o ho
        exact htakes.not_ended o (hended o ho).1
      have hmoved := @Arrival.arrived s now job j first turn.phase
        (rest ++ turn.events.map fun x => (now, x)) harrives (harrival.trans hle)
        fun o ho => absurd ho (hopen o)
      rwa [← List.append_assoc] at hmoved

/-! ## Requests that are answered on arrival -/

/-- How a request that is answered without admission can stand by a millisecond. -/
inductive Brief (s : Service) (job : Job) (entries : List LogEntry) (resp : Http.Response)
    (now : Nat) : Task → Prop
  /-- It has not arrived. -/
  | expected : Brief s job entries resp now (.ofJob job)
  /-- It has been cancelled before its arrival. -/
  | dropped {c : Nat} (hc : job.cancelAt = some c) (hlt : c < job.arrival) (hle : c ≤ now) :
      Brief s job entries resp now ⟨job, .ended .cancelled, []⟩
  /-- It has been answered when it arrived. -/
  | answered (harrives : job.Arrives) (hle : job.arrival ≤ now) :
      Brief s job entries resp now ⟨job, Stage.answered s job.arrival resp,
        ((.requestStarted job.request.target.shown :: entries).map .log).map
          fun x => (job.arrival, x)⟩

variable {entries : List LogEntry} {resp : Http.Response}

/-- A request that is answered without admission takes one turn at most. -/
lemma Arrival.brief (h : Arrival s now t)
    (hshort : Stage.Shortcut s t.job.request entries resp) : Brief s t.job entries resp now t := by
  cases h with
  | expected job => exact .expected
  | dropped hc hlt hle => exact .dropped hc hlt hle
  | arrived harrives hle hended =>
    obtain ⟨rfl, rfl⟩ := hended _ (by rw [hshort.arrive]; rfl)
    rw [hshort.arrive, List.append_nil]
    exact .answered harrives hle

namespace Brief

variable {job : Job} {horizon : Nat}

/-- A request stays where it is while time passes. -/
lemma mono (h : Brief s job entries resp last t) (hle : last ≤ now) :
    Brief s job entries resp now t := by
  cases h with
  | expected => exact .expected
  | dropped hc hlt hc' => exact .dropped hc hlt (hc'.trans hle)
  | answered harrives harrival => exact .answered harrives (harrival.trans hle)

/-- What has been seen of the request are entries of the log, at its arrival. -/
lemma logs (h : Brief s job entries resp now t) :
    ∀ e ∈ t.trace, e.1 = job.arrival ∧ ∃ entry, e.2 = .log entry := by
  cases h with
  | expected | dropped => simp [ofJob]
  | answered => simp

/-- The request leaves what is shared as it finds it. -/
lemma takes_shared (h : Brief s job entries resp last t) (htakes : t.Takes s now i shared turn)
    (hshort : Stage.Shortcut s job.request entries resp) : turn.shared = shared := by
  cases h with
  | expected =>
    cases htakes with
    | fires => exact congrArg Turn.shared (hshort.arrive i now shared)
    | cancels => rfl
    | resumes hqueued => cases hqueued
  | dropped | answered => exact absurd rfl (htakes.not_ended _)

/-- The request has not arrived until it ends. -/
lemma eq_ofJob (h : Brief s job entries resp now t) (hopen : t.hasEnded = false) :
    t = .ofJob job := by
  cases h with
  | expected => rfl
  | dropped | answered => cases hopen

/-- The request ends with its answer when it arrives, or it never arrives. -/
lemma outcome (h : Brief s job entries resp now t) {o : Outcome} (ho : t.outcome? = some o) :
    o = .response job.arrival { resp with fields := s.crossOrigin.apply resp.fields } ∨
      o = .cancelled ∧ ¬ job.Arrives ∧ t.trace = [] := by
  cases h with
  | expected => cases ho
  | dropped hc hlt =>
    refine .inr ⟨(Option.some.inj ho).symm, fun harrives => ?_, rfl⟩
    exact Nat.not_le.mpr hlt (harrives _ hc)
  | answered => exact .inl (Option.some.inj ho).symm

/-- Once nothing is left to happen by a time, a request that has arrived by then has been
answered. -/
lemma eq_answered (h : Brief s job entries resp now t)
    (hlate : ∀ a, t.timer? = some a → horizon < a.time) (harrival : job.arrival ≤ horizon)
    (harrives : job.Arrives) :
    t = ⟨job, Stage.answered s job.arrival resp,
      ((.requestStarted job.request.target.shown :: entries).map .log).map
        fun x => (job.arrival, x)⟩ := by
  cases h with
  | expected =>
    obtain ⟨a, ha, hle⟩ := exists_timer?_le (t := .ofJob job) (c := job.arrival) (.inl rfl)
    have hlater := hlate a ha
    omega
  | dropped hc hlt =>
    have hge := harrives _ hc
    omega
  | answered => rfl

/-- Once nothing is left to happen by a time, a request that is cancelled before it arrives has been
cancelled. -/
lemma eq_dropped (h : Brief s job entries resp now t)
    (hlate : ∀ a, t.timer? = some a → horizon < a.time) {c : Nat} (hc : job.cancelAt = some c)
    (hlt : c < job.arrival) (hle : c ≤ horizon) : t = ⟨job, .ended .cancelled, []⟩ := by
  cases h with
  | expected =>
    have hcancel : (Task.ofJob job).cancelTime? = some c :=
      cancelTime?_eq_some_iff.mpr ⟨fun o ho => (by cases ho), hc⟩
    obtain ⟨a, ha, htime⟩ := exists_timer?_le (.inr hcancel)
    have hlater := hlate a ha
    omega
  | dropped => rfl
  | answered harrives =>
    have hge := harrives c hc
    omega

/-- Two runs that have stopped at the same time leave the request in the same place. -/
lemma unique {s' : Service} {now' : Nat} {u : Task} (h : Brief s job entries resp now t)
    (hu : Brief s' job entries resp now' u) (hcors : s.crossOrigin = s'.crossOrigin)
    (hlate : ∀ a, t.timer? = some a → horizon < a.time)
    (hlate' : ∀ a, u.timer? = some a → horizon < a.time) (hnow : now ≤ horizon)
    (hnow' : now' ≤ horizon) : t = u := by
  have hsame : Stage.answered s job.arrival resp = Stage.answered s' job.arrival resp := by
    rw [Stage.answered, Stage.answered, hcors]
  have hsecond := hu
  cases hu with
  | dropped hc hlt hle => exact h.eq_dropped hlate hc hlt (hle.trans hnow')
  | answered harrives hle => exact hsame ▸ h.eq_answered hlate (hle.trans hnow') harrives
  | expected =>
    cases h with
    | expected => rfl
    | dropped hc hlt hle => exact (hsecond.eq_dropped hlate' hc hlt (hle.trans hnow)).symm
    | answered harrives hle =>
      exact hsame ▸ (hsecond.eq_answered hlate' (hle.trans hnow) harrives).symm

end Brief

end Task

namespace Run

variable {s : Service} {jobs : List Job} {r : Run} {t : Task} {entries : List LogEntry}
  {resp : Http.Response}

/-- In a run a request that is answered without admission stands where it does when it is alone. -/
lemma Sound.brief (hr : r.Sound s jobs) (ht : t ∈ r.tasks)
    (hshort : Stage.Shortcut s t.job.request entries resp) :
    t.Brief s t.job entries resp r.clock := by
  obtain ⟨last, hle, hcourse⟩ := hr.course t ht
  exact (hcourse.arrival.brief hshort).mono hle

end Run

end Gateway
