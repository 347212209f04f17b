import Mathlib
import Gateway.Proofs.Config.Accepted

/-!
# The rules for a configuration

A configuration has to keep eight rules, each of which is about one of its fields. The problems of a
configuration are those of the rules that it breaks, one for each of them and in a fixed order, and a
problem names the field and the value that its rule is about (`Config.thorough_problems`). There is one
exception: the number of connections is compared with the number of slots only if there are any slots, so
that a configuration with neither connections nor slots breaks two rules and has one problem
(`Config.exists_broken_unreported`). It is refused all the same.
-/

namespace Gateway.Config

/-- A rule that a configuration has to keep. -/
inductive Rule where
  /-- The gateway listens at a socket address. -/
  | bindAddress
  /-- Measurements, if they are on, are shown at a socket address. -/
  | metricsAddress
  /-- There are slots. -/
  | concurrency
  /-- There are more connections than slots. -/
  | connections
  /-- There is time to read a request. -/
  | readTime
  /-- There is time to answer a request. -/
  | writeTime
  /-- The effort of compression is at most nine. -/
  | compression
  /-- Images are kept for ten years at most. -/
  | lifetime
deriving DecidableEq

namespace Rule

/-- All rules, in the order in which they are reported. -/
def all : List Rule := [bindAddress, metricsAddress, concurrency, connections, readTime, writeTime,
  compression, lifetime]

/-- Whether a configuration breaks a rule. -/
def IsBroken (c : Config) : Rule → Prop
  | bindAddress => SocketAddress.parse? c.listener.bindAddress = none
  | metricsAddress => c.observability.metricsEnabled = true ∧
    SocketAddress.parse? c.observability.metricsAddress = none
  | concurrency => c.processing.concurrency = 0
  | connections => c.listener.maxConnections ≤ c.processing.concurrency
  | readTime => c.timeouts.readSecs = 0
  | writeTime => c.timeouts.writeSecs = 0
  | compression => 9 < c.response.gzipLevel
  | lifetime => 10 * 365 * 24 * 60 * 60 < c.response.ttlSecs

instance (c : Config) : DecidablePred (IsBroken c)
  | bindAddress => inferInstanceAs (Decidable (_ = _))
  | metricsAddress => inferInstanceAs (Decidable (_ ∧ _))
  | concurrency => inferInstanceAs (Decidable (_ = _))
  | connections => inferInstanceAs (Decidable (_ ≤ _))
  | readTime => inferInstanceAs (Decidable (_ = _))
  | writeTime => inferInstanceAs (Decidable (_ = _))
  | compression => inferInstanceAs (Decidable (_ < _))
  | lifetime => inferInstanceAs (Decidable (_ < _))

/-- The problem of a configuration that breaks a rule. -/
def problem (c : Config) : Rule → Problem
  | bindAddress => .invalidAddress "listener.bind_address" c.listener.bindAddress
  | metricsAddress =>
    .invalidAddress "observability.metrics_address" c.observability.metricsAddress
  | concurrency => .zero "processing.concurrency"
  | connections => .tooFewConnections c.listener.maxConnections c.processing.concurrency
  | readTime => .zero "timeouts.read_secs"
  | writeTime => .zero "timeouts.write_secs"
  | compression => .gzipLevel c.response.gzipLevel
  | lifetime => .ttlTooLarge c.response.ttlSecs

end Rule

/-! ## Fields and values -/

/-- The value of a field. -/
inductive Setting where
  | text (s : String)
  | number (n : ℕ)

/-- A value as the text of a problem shows it. -/
def Setting.shown : Setting → String
  | text s => Text.quoted s
  | number n => numeral n

namespace Problem

/-- The field that a problem is about. -/
def field : Problem → String
  | invalidAddress field _ => field
  | zero field => field
  | tooFewConnections _ _ => "listener.max_connections"
  | gzipLevel _ => "response.gzip_compression"
  | ttlTooLarge _ => "response.ttl_secs"

/-- The value of the field that a problem is about. -/
def value : Problem → Setting
  | invalidAddress _ value => .text value
  | zero _ => .number 0
  | tooFewConnections maxConnections _ => .number maxConnections
  | gzipLevel level => .number level
  | ttlTooLarge secs => .number secs

/-- Whether a word is in the text of a problem. -/
def Says (p : Problem) (word : String) : Prop :=
  ∃ before after : String, p.text = before ++ word ++ after

end Problem

namespace Rule

/-- The field that a rule is about. -/
def field : Rule → String
  | bindAddress => "listener.bind_address"
  | metricsAddress => "observability.metrics_address"
  | concurrency => "processing.concurrency"
  | connections => "listener.max_connections"
  | readTime => "timeouts.read_secs"
  | writeTime => "timeouts.write_secs"
  | compression => "response.gzip_compression"
  | lifetime => "response.ttl_secs"

/-- The value of the field that a rule is about. -/
def value (c : Config) : Rule → Setting
  | bindAddress => .text c.listener.bindAddress
  | metricsAddress => .text c.observability.metricsAddress
  | concurrency => .number c.processing.concurrency
  | connections => .number c.listener.maxConnections
  | readTime => .number c.timeouts.readSecs
  | writeTime => .number c.timeouts.writeSecs
  | compression => .number c.response.gzipLevel
  | lifetime => .number c.response.ttlSecs

end Rule

/-! ## What is reported -/

section Reports

variable {c : Config} {r : Rule}

/-- Whether a rule is reported: it is broken, and it does not compare the connections with no slots. -/
def Rule.IsReported (c : Config) (r : Rule) : Prop :=
  r.IsBroken c ∧ ¬ (r = .connections ∧ Rule.concurrency.IsBroken c)

instance (c : Config) : DecidablePred (Rule.IsReported c) :=
  fun _ => inferInstanceAs (Decidable (_ ∧ _))

/-- Every rule but one is reported whenever it is broken. -/
lemma Rule.isReported_iff_of_ne (hr : r ≠ .connections) : r.IsReported c ↔ r.IsBroken c :=
  and_iff_left fun h => hr h.1

/-- The problems of the rules in a list of which some are reported, one after the other. -/
lemma map_filter_isReported (c : Config) (rules : List Rule) :
    (rules.filter fun r => r.IsReported c).map (Rule.problem c) =
      rules.flatMap fun r => problemIf (decide (r.IsReported c)) (r.problem c) := by
  induction rules with
  | nil => rfl
  | cons r rules ih =>
    rw [List.flatMap_cons, ← ih]
    by_cases h : r.IsReported c
    · simp [problemIf, h]
    · simp [problemIf, h]

/-- The problems with the numbers of slots and connections are those of two rules. -/
lemma capacityProblems_eq (c : Config) : capacityProblems c =
    problemIf (decide (Rule.concurrency.IsReported c)) (Rule.concurrency.problem c) ++
      problemIf (decide (Rule.connections.IsReported c)) (Rule.connections.problem c) := by
  unfold capacityProblems
  by_cases hzero : c.processing.concurrency = 0
  · simp [hzero, problemIf, Rule.IsReported, Rule.IsBroken, Rule.problem]
  · simp [hzero, problemIf, Rule.IsReported, Rule.IsBroken, Rule.problem]

/-- The problems are those of the rules that are reported, in the order of the rules. -/
lemma problems_eq (c : Config) :
    c.problems = (Rule.all.filter fun r => r.IsReported c).map (Rule.problem c) := by
  have haddress (s : String) : (!isAddress s) = decide (SocketAddress.parse? s = none) := by
    unfold isAddress
    rcases SocketAddress.parse? s with _ | a
    · rfl
    · rfl
  have hbroken {r : Rule} (hr : r ≠ .connections) :
      decide (r.IsReported c) = decide (r.IsBroken c) :=
    decide_eq_decide.mpr (Rule.isReported_iff_of_ne hr)
  have hmetrics : decide (Rule.metricsAddress.IsBroken c) = (c.observability.metricsEnabled &&
      decide (SocketAddress.parse? c.observability.metricsAddress = none)) := by
    rw [Bool.eq_iff_iff, Bool.and_eq_true, decide_eq_true_iff, decide_eq_true_iff]
    rfl
  rw [map_filter_isReported, problems, capacityProblems_eq, haddress, haddress]
  simp only [Rule.all, List.flatMap_cons, List.flatMap_nil, List.append_nil, List.append_assoc]
  rw [hbroken (r := .bindAddress) (by decide), hbroken (r := .metricsAddress) (by decide),
    hbroken (r := .readTime) (by decide), hbroken (r := .writeTime) (by decide),
    hbroken (r := .compression) (by decide), hbroken (r := .lifetime) (by decide), hmetrics]
  rfl

/-- The problem of a broken rule is about the field and the value that the rule is about. -/
lemma Rule.problem_of_isBroken (h : r.IsBroken c) :
    (r.problem c).field = r.field ∧ (r.problem c).value = r.value c := by
  cases r with
  | concurrency => exact ⟨rfl, congrArg Setting.number (Eq.symm h)⟩
  | readTime => exact ⟨rfl, congrArg Setting.number (Eq.symm h)⟩
  | writeTime => exact ⟨rfl, congrArg Setting.number (Eq.symm h)⟩
  | _ => exact ⟨rfl, rfl⟩

/-- Different rules are about different fields. -/
lemma Rule.nodup_fields : (Rule.all.map Rule.field).Nodup := by
  decide

/-- The text of a problem names the field. -/
lemma Problem.says_field (p : Problem) : p.Says p.field := by
  cases p with
  | invalidAddress field value =>
    refine ⟨"invalid ", ": " ++ Text.quoted value ++ " is not a socket address", ?_⟩
    unfold Problem.text Problem.field
    simp only [String.append_assoc]
  | zero field =>
    refine ⟨"", " must be greater than zero", ?_⟩
    unfold Problem.text Problem.field
    rw [String.empty_append]
  | tooFewConnections m k =>
    have hword : "listener.max_connections (" = "listener.max_connections" ++ " (" := rfl
    refine ⟨"", " (" ++ numeral m ++ ") must be greater than processing.concurrency (" ++ numeral k ++
      ")", ?_⟩
    unfold Problem.text Problem.field
    simp only [hword, String.empty_append, String.append_assoc]
  | gzipLevel level =>
    have hword : "response.gzip_compression must be between 0 and 9, got " =
        "response.gzip_compression" ++ " must be between 0 and 9, got " := rfl
    refine ⟨"", " must be between 0 and 9, got " ++ numeral level, ?_⟩
    unfold Problem.text Problem.field
    simp only [hword, String.empty_append, String.append_assoc]
  | ttlTooLarge secs =>
    have hword : "response.ttl_secs must be at most " =
        "response.ttl_secs" ++ " must be at most " := rfl
    refine ⟨"", " must be at most " ++ numeral maxTtlSecs ++ ", got " ++ numeral secs, ?_⟩
    unfold Problem.text Problem.field
    simp only [hword, String.empty_append, String.append_assoc]

/-- The text of a problem names the value, unless it only says that the value must not be zero. -/
lemma Problem.says_value {p : Problem} (h : ∀ field, p ≠ .zero field) : p.Says p.value.shown := by
  cases p with
  | invalidAddress field value => exact ⟨"invalid " ++ field ++ ": ", " is not a socket address", rfl⟩
  | zero field => exact absurd rfl (h field)
  | tooFewConnections m k =>
    refine ⟨"listener.max_connections (", ") must be greater than processing.concurrency (" ++
      numeral k ++ ")", ?_⟩
    unfold Problem.text Problem.value Setting.shown
    simp only [String.append_assoc]
  | gzipLevel level =>
    exact ⟨"response.gzip_compression must be between 0 and 9, got ", "", String.append_empty.symm⟩
  | ttlTooLarge secs =>
    exact ⟨"response.ttl_secs must be at most " ++ numeral maxTtlSecs ++ ", got ", "",
      String.append_empty.symm⟩

/-- A configuration is in range if it keeps all rules. -/
lemma inRange_iff : c.InRange ↔ ∀ r : Rule, ¬ r.IsBroken c := by
  rw [← problems_eq_nil_iff, problems_eq, List.map_eq_nil_iff, List.filter_eq_nil_iff]
  constructor
  · intro h r hr
    by_cases hcapacity : r = .connections ∧ Rule.concurrency.IsBroken c
    · exact h .concurrency (by decide) (decide_eq_true ⟨hcapacity.2, fun hne => by cases hne.1⟩)
    · exact h r (by cases r <;> decide) (decide_eq_true ⟨hr, hcapacity⟩)
  · intro h r _ hr
    exact h r (of_decide_eq_true hr).1

/-- Every rule that a configuration breaks is reported by one problem, whatever other rules it breaks, and
there are no other problems; only the rule about connections is passed over if there are no slots. The
problems come in the order of the rules and name the fields and values of them. A configuration passes as
it is if it breaks no rule, and is refused with all its problems if it breaks one. -/
theorem thorough_problems (c : Config) :
    (∃ rules : List Rule, rules.Sublist Rule.all ∧
      (∀ r, r ∈ rules ↔ r.IsBroken c ∧ ¬ (r = .connections ∧ Rule.concurrency.IsBroken c)) ∧
      c.problems = rules.map (Rule.problem c)) ∧
    (c.problems.map Problem.field).Nodup ∧
    (∀ r : Rule, r.IsBroken c → (r.problem c).field = r.field ∧ (r.problem c).value = r.value c) ∧
    (∀ p : Problem, p.Says p.field ∧ ((∀ field, p ≠ .zero field) → p.Says p.value.shown)) ∧
    ((∀ r : Rule, ¬ r.IsBroken c) ∧ validated c = .ok c ∨
      (∃ r : Rule, r.IsBroken c) ∧ validated c = .error (.invalid c.problems)) := by
  refine ⟨?_, ?_, fun r hr => Rule.problem_of_isBroken hr,
    fun p => ⟨p.says_field, Problem.says_value⟩, ?_⟩
  · refine ⟨Rule.all.filter fun r => r.IsReported c, List.filter_sublist, fun r => ?_, problems_eq c⟩
    have hall : r ∈ Rule.all := by cases r <;> decide
    rw [List.mem_filter, decide_eq_true_iff]
    exact and_iff_right hall
  · have hfields : c.problems.map Problem.field =
        (Rule.all.filter fun r => r.IsReported c).map Rule.field := by
      rw [problems_eq, List.map_map]
      refine List.map_congr_left fun r hr => ?_
      exact (Rule.problem_of_isBroken (of_decide_eq_true (List.mem_filter.mp hr).2).1).1
    rw [hfields]
    exact Rule.nodup_fields.sublist (List.filter_sublist.map _)
  · unfold validated
    split
    · next hnone => exact .inl ⟨inRange_iff.mp (problems_eq_nil_iff.mp hnone), rfl⟩
    · next hsome =>
      refine .inr ⟨?_, rfl⟩
      by_contra hkept
      exact hsome (problems_eq_nil_iff.mpr (inRange_iff.mpr (not_exists.mp hkept)))

/-- A configuration without connections and slots breaks the rule about connections and is not told so. -/
theorem exists_broken_unreported :
    ∃ c : Config, Rule.connections.IsBroken c ∧ Rule.connections.problem c ∉ c.problems ∧
      c.problems = [.zero "processing.concurrency"] := by
  refine ⟨{ standard 1 with listener := ⟨"0.0.0.0:8080", 0⟩, processing := ⟨0⟩ }, ?_⟩
  decide +kernel

end Reports

end Gateway.Config
