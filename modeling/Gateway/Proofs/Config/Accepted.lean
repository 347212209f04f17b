import Mathlib
import Gateway.Config.Load

/-!
# Accepted configurations

A configuration is accepted if it has no problems, as it is or as the meaning of a text. That is so exactly
when each of its settings is in the range for it (`Config.problems_eq_nil_iff`).
-/

namespace Gateway.Config

/-- Whether a configuration is accepted, as it is or as the meaning of a text. -/
def Accepted (c : Config) : Prop :=
  validated c = .ok c ∨ ∃ processors text, parse processors text = .ok c

/-- The ranges in which the settings of a configuration have to be. -/
structure InRange (c : Config) : Prop where
  bindAddress : isAddress c.listener.bindAddress = true
  metricsAddress : c.observability.metricsEnabled = true →
    isAddress c.observability.metricsAddress = true
  concurrency_pos : 0 < c.processing.concurrency
  /-- There are more connections than slots. -/
  concurrency_lt : c.processing.concurrency < c.listener.maxConnections
  readSecs_pos : 0 < c.timeouts.readSecs
  writeSecs_pos : 0 < c.timeouts.writeSecs
  gzipLevel_le : c.response.gzipLevel ≤ maxGzipLevel
  ttlSecs_le : c.response.ttlSecs ≤ maxTtlSecs

variable {c c' : Config}

lemma problemIf_eq_nil {broken : Bool} {p : Problem} : problemIf broken p = [] ↔ broken = false := by
  cases broken <;> simp [problemIf]

lemma capacityProblems_eq_nil : capacityProblems c = [] ↔
    0 < c.processing.concurrency ∧ c.processing.concurrency < c.listener.maxConnections := by
  unfold capacityProblems
  split
  · next hzero => simp [hzero]
  · next hpos => simp [problemIf_eq_nil, Nat.pos_of_ne_zero hpos]

/-- A configuration has no problems exactly when all its settings are in range. -/
lemma problems_eq_nil_iff : c.problems = [] ↔ c.InRange := by
  simp only [problems, List.append_eq_nil_iff, problemIf_eq_nil, capacityProblems_eq_nil]
  constructor
  · rintro ⟨⟨⟨⟨⟨⟨hbind, hmetrics⟩, hpos, hlt⟩, hread⟩, hwrite⟩, hgzip⟩, httl⟩
    refine ⟨?_, ?_, hpos, hlt, ?_, ?_, ?_, ?_⟩
    · simpa using hbind
    · simpa using hmetrics
    · simpa [Nat.pos_iff_ne_zero] using hread
    · simpa [Nat.pos_iff_ne_zero] using hwrite
    · simpa using hgzip
    · simpa using httl
  · intro h
    refine ⟨⟨⟨⟨⟨⟨?_, ?_⟩, h.concurrency_pos, h.concurrency_lt⟩, ?_⟩, ?_⟩, ?_⟩, ?_⟩
    · simpa using h.bindAddress
    · simpa using h.metricsAddress
    · simpa using h.readSecs_pos.ne'
    · simpa using h.writeSecs_pos.ne'
    · simpa using h.gzipLevel_le
    · simpa using h.ttlSecs_le

/-- A configuration that passes is the one that has been looked at, and it has no problems. -/
lemma eq_of_validated (h : validated c = .ok c') : c' = c ∧ c.problems = [] := by
  unfold validated at h
  split at h
  · next hnone => exact ⟨(Except.ok.inj h).symm, hnone⟩
  · cases h

/-- The settings of an accepted configuration are in range. -/
lemma inRange_of_accepted (h : c.Accepted) : c.InRange := by
  apply problems_eq_nil_iff.mp
  rcases h with hvalid | ⟨processors, text, hparse⟩
  · exact (eq_of_validated hvalid).2
  · unfold parse at hparse
    split at hparse
    · obtain ⟨rfl, hnone⟩ := eq_of_validated hparse
      exact hnone
    · cases hparse

end Gateway.Config
