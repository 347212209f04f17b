import Mathlib
import Gateway.Proofs.Config.Rules

/-!
# Settings that are not given

A text gives some of the settings, and the others have the values of the machine
(`Config.Given.completes_of_ofMembers?`). Those values are in range by themselves, whatever the number of
processors, so that a text is judged by what it gives. There is one range with two ends: a text that gives
the number of slots or the number of connections, but not both, is also compared with the value of the
machine for the other one (`Config.accepted_of_given`).
-/

namespace Gateway.Config

/-! ## What is given -/

/-- The value that a text gives to a field of a section, if it does. -/
def given? {α : Type} (ms : Toml.Members) (heading name : String) (read : Toml → Option α) :
    Option α := do
  let v ← ms.get? heading
  let fields ← sectionFields? heading v
  let value ← fields.get? name
  read value

/-- The settings with a range, as far as a text gives them. -/
structure Given where
  bindAddress : Option String
  maxConnections : Option ℕ
  concurrency : Option ℕ
  readSecs : Option ℕ
  writeSecs : Option ℕ
  ttlSecs : Option ℕ
  gzipLevel : Option ℕ
  metricsEnabled : Option Bool
  metricsAddress : Option String
deriving DecidableEq

namespace Given

/-- The settings that a text gives. -/
def ofMembers (ms : Toml.Members) : Given where
  bindAddress := given? ms "listener" "bind_address" text?
  maxConnections := given? ms "listener" "max_connections" count?
  concurrency := given? ms "processing" "concurrency" count?
  readSecs := given? ms "timeouts" "read_secs" count?
  writeSecs := given? ms "timeouts" "write_secs" count?
  ttlSecs := given? ms "response" "ttl_secs" count?
  gzipLevel := given? ms "response" "gzip_compression" (below? (1 <<< 32))
  metricsEnabled := given? ms "observability" "metrics_enabled" flag?
  metricsAddress := given? ms "observability" "metrics_address" text?

/-- Whether the given settings are in range by themselves. A range that depends on another setting counts
only if that one is given too. -/
structure InRange (g : Given) : Prop where
  bindAddress : ∀ a ∈ g.bindAddress, isAddress a = true
  metricsAddress : g.metricsEnabled = some true → ∀ a ∈ g.metricsAddress, isAddress a = true
  concurrency_pos : ∀ k ∈ g.concurrency, 0 < k
  concurrency_lt : ∀ k ∈ g.concurrency, ∀ m ∈ g.maxConnections, k < m
  readSecs_pos : ∀ n ∈ g.readSecs, 0 < n
  writeSecs_pos : ∀ n ∈ g.writeSecs, 0 < n
  gzipLevel_le : ∀ n ∈ g.gzipLevel, n ≤ maxGzipLevel
  ttlSecs_le : ∀ n ∈ g.ttlSecs, n ≤ maxTtlSecs

/-- Whether a configuration has the given settings, and those of another one where none is given. -/
structure Completes (g : Given) (base c : Config) : Prop where
  bindAddress : c.listener.bindAddress = g.bindAddress.getD base.listener.bindAddress
  maxConnections : c.listener.maxConnections = g.maxConnections.getD base.listener.maxConnections
  concurrency : c.processing.concurrency = g.concurrency.getD base.processing.concurrency
  readSecs : c.timeouts.readSecs = g.readSecs.getD base.timeouts.readSecs
  writeSecs : c.timeouts.writeSecs = g.writeSecs.getD base.timeouts.writeSecs
  ttlSecs : c.response.ttlSecs = g.ttlSecs.getD base.response.ttlSecs
  gzipLevel : c.response.gzipLevel = g.gzipLevel.getD base.response.gzipLevel
  metricsEnabled : c.observability.metricsEnabled =
    g.metricsEnabled.getD base.observability.metricsEnabled
  metricsAddress : c.observability.metricsAddress =
    g.metricsAddress.getD base.observability.metricsAddress

end Given

/-! ## Reading what is given -/

/-! ### Sections -/

section Sections

variable {v : Toml}

lemma Listener.fields_of_ofToml? {standard s : Listener} (h : Listener.ofToml? standard v = some s) :
    ∃ fields, sectionFields? "listener" v = some fields ∧
      field? fields "bind_address" text? standard.bindAddress = some s.bindAddress ∧
      field? fields "max_connections" count? standard.maxConnections = some s.maxConnections := by
  simp only [Listener.ofToml?, Option.bind_eq_bind, Option.bind_eq_some_iff, Option.pure_def,
    Option.some.injEq] at h
  obtain ⟨fields, hfields, a, ha, m, hm, rfl⟩ := h
  exact ⟨fields, hfields, ha, hm⟩

lemma Processing.fields_of_ofToml? {standard s : Processing} (h : Processing.ofToml? standard v = some s) :
    ∃ fields, sectionFields? "processing" v = some fields ∧
      field? fields "concurrency" count? standard.concurrency = some s.concurrency := by
  simp only [Processing.ofToml?, Option.bind_eq_bind, Option.bind_eq_some_iff, Option.pure_def,
    Option.some.injEq] at h
  obtain ⟨fields, hfields, k, hk, rfl⟩ := h
  exact ⟨fields, hfields, hk⟩

lemma Timeouts.fields_of_ofToml? {standard s : Timeouts} (h : Timeouts.ofToml? standard v = some s) :
    ∃ fields, sectionFields? "timeouts" v = some fields ∧
      field? fields "read_secs" count? standard.readSecs = some s.readSecs ∧
      field? fields "write_secs" count? standard.writeSecs = some s.writeSecs := by
  simp only [Timeouts.ofToml?, Option.bind_eq_bind, Option.bind_eq_some_iff, Option.pure_def,
    Option.some.injEq] at h
  obtain ⟨fields, hfields, a, ha, b, hb, rfl⟩ := h
  exact ⟨fields, hfields, ha, hb⟩

lemma Response.fields_of_ofToml? {standard s : Response} (h : Response.ofToml? standard v = some s) :
    ∃ fields, sectionFields? "response" v = some fields ∧
      field? fields "ttl_secs" count? standard.ttlSecs = some s.ttlSecs ∧
      field? fields "gzip_compression" (below? (1 <<< 32)) standard.gzipLevel = some s.gzipLevel := by
  simp only [Response.ofToml?, Option.bind_eq_bind, Option.bind_eq_some_iff, Option.pure_def,
    Option.some.injEq] at h
  obtain ⟨fields, hfields, a, ha, b, hb, e, -, rfl⟩ := h
  exact ⟨fields, hfields, ha, hb⟩

lemma Observability.fields_of_ofToml? {standard s : Observability}
    (h : Observability.ofToml? standard v = some s) :
    ∃ fields, sectionFields? "observability" v = some fields ∧
      field? fields "metrics_enabled" flag? standard.metricsEnabled = some s.metricsEnabled ∧
      field? fields "metrics_address" text? standard.metricsAddress = some s.metricsAddress := by
  simp only [Observability.ofToml?, Option.bind_eq_bind, Option.bind_eq_some_iff, Option.pure_def,
    Option.some.injEq] at h
  obtain ⟨fields, hfields, l, -, a, ha, b, hb, rfl⟩ := h
  exact ⟨fields, hfields, ha, hb⟩

end Sections

section Reading

variable {α σ : Type} {fields ms : Toml.Members} {heading name : String} {read : Toml → Option α}
  {x y : α} {base c : Config}

/-- A field has the value that is given, or its standard value. -/
lemma eq_of_field? (h : field? fields name read y = some x) :
    x = ((fields.get? name).bind read).getD y := by
  unfold field? at h
  split at h
  · next v hv => rw [hv, Option.bind_some, h, Option.getD_some]
  · next hv => rw [hv, Option.bind_none, Option.getD_none, Option.some.inj h]

/-- A field of a section has the value that is given, or its standard value. -/
lemma eq_given?_getD {ofToml? : Toml → Option σ} {s std : σ} {value : σ → α}
    (hsection : field? ms heading ofToml? std = some s)
    (hfield : ∀ v s, ofToml? v = some s → ∃ fields, sectionFields? heading v = some fields ∧
      field? fields name read (value std) = some (value s)) :
    value s = (given? ms heading name read).getD (value std) := by
  unfold field? at hsection
  split at hsection
  · next v hv =>
    obtain ⟨fields, hfields, hvalue⟩ := hfield v s hsection
    rw [eq_of_field? hvalue]
    simp [given?, hv, hfields]
  · next hv =>
    rw [Option.some.inj hsection]
    simp [given?, hv]

/-- A configuration that is read has the given settings, and the standard values for the others. -/
lemma Given.completes_of_ofMembers? (h : ofMembers? base ms = some c) :
    (Given.ofMembers ms).Completes base c := by
  simp only [ofMembers?, Option.bind_eq_bind, Option.bind_eq_some_iff, Option.pure_def,
    Option.some.injEq] at h
  obtain ⟨listener, hlistener, processing, hprocessing, timeouts, htimeouts, response, hresponse,
    security, -, observability, hobservability, download, -, rfl⟩ := h
  exact {
    bindAddress := eq_given?_getD hlistener fun _ _ h =>
      (Listener.fields_of_ofToml? h).imp fun _ h => ⟨h.1, h.2.1⟩
    maxConnections := eq_given?_getD hlistener fun _ _ h =>
      (Listener.fields_of_ofToml? h).imp fun _ h => ⟨h.1, h.2.2⟩
    concurrency := eq_given?_getD hprocessing fun _ _ h => Processing.fields_of_ofToml? h
    readSecs := eq_given?_getD htimeouts fun _ _ h =>
      (Timeouts.fields_of_ofToml? h).imp fun _ h => ⟨h.1, h.2.1⟩
    writeSecs := eq_given?_getD htimeouts fun _ _ h =>
      (Timeouts.fields_of_ofToml? h).imp fun _ h => ⟨h.1, h.2.2⟩
    ttlSecs := eq_given?_getD hresponse fun _ _ h =>
      (Response.fields_of_ofToml? h).imp fun _ h => ⟨h.1, h.2.1⟩
    gzipLevel := eq_given?_getD hresponse fun _ _ h =>
      (Response.fields_of_ofToml? h).imp fun _ h => ⟨h.1, h.2.2⟩
    metricsEnabled := eq_given?_getD hobservability fun _ _ h =>
      (Observability.fields_of_ofToml? h).imp fun _ h => ⟨h.1, h.2.1⟩
    metricsAddress := eq_given?_getD hobservability fun _ _ h =>
      (Observability.fields_of_ofToml? h).imp fun _ h => ⟨h.1, h.2.2⟩ }

end Reading

/-! ## Ranges -/

section Ranges

variable {g : Given} {c : Config} {processors : ℕ}

/-- What holds of every given value and of the standard value holds of the value. -/
lemma of_getD {α : Type} {P : α → Prop} {given : Option α} {base : α} (hgiven : ∀ x ∈ given, P x)
    (hbase : P base) : P (given.getD base) := by
  rcases given with _ | x
  · exact hbase
  · exact hgiven x rfl

/-- The addresses that a machine uses if none are given. -/
lemma isAddress_standard : isAddress (standard processors).listener.bindAddress = true ∧
    isAddress (standard processors).observability.metricsAddress = true := by
  change isAddress "0.0.0.0:8080" = true ∧ isAddress "0.0.0.0:9090" = true
  decide +kernel

/-- Settings in range keep all rules when the others are those of a machine, but for the rule that compares
two of them. -/
lemma Given.Completes.not_isBroken {r : Rule} (hc : g.Completes (standard processors) c)
    (hg : g.InRange) (hprocessors : 1 ≤ processors) (hr : r ≠ .connections) : ¬ r.IsBroken c := by
  have hread {s : String} (hs : isAddress s = true) : SocketAddress.parse? s ≠ none :=
    Option.isSome_iff_ne_none.mp hs
  cases r with
  | bindAddress => exact hread (hc.bindAddress ▸ of_getD hg.bindAddress isAddress_standard.1)
  | metricsAddress =>
    rintro ⟨henabled, haddress⟩
    -- measurements are off unless they are turned on
    have hgiven : g.metricsEnabled = some true := by
      rw [hc.metricsEnabled] at henabled
      rcases hflag : g.metricsEnabled with _ | b
      · rw [hflag] at henabled
        cases henabled
      · rw [hflag] at henabled
        exact congrArg some henabled
    refine hread ?_ haddress
    exact hc.metricsAddress ▸ of_getD (hg.metricsAddress hgiven) isAddress_standard.2
  | concurrency =>
    have hstandard : 0 < (standard processors).processing.concurrency := by
      change 0 < processors * 2
      omega
    exact (hc.concurrency ▸ of_getD hg.concurrency_pos hstandard).ne'
  | connections => exact absurd rfl hr
  | readTime => exact (hc.readSecs ▸ of_getD hg.readSecs_pos (Nat.succ_pos 9)).ne'
  | writeTime => exact (hc.writeSecs ▸ of_getD hg.writeSecs_pos (Nat.succ_pos 9)).ne'
  | compression => exact (hc.gzipLevel ▸ of_getD hg.gzipLevel_le (Nat.zero_le _)).not_gt
  | lifetime =>
    have hstandard : (standard processors).response.ttlSecs ≤ maxTtlSecs := by
      change 3600 ≤ 10 * 365 * 24 * 60 * 60
      norm_num
    exact (hc.ttlSecs ▸ of_getD hg.ttlSecs_le hstandard).not_gt

/-- There are more connections than slots if both numbers are given, if none is, and if the one that is
given fits the value of the machine for the other. -/
lemma Given.Completes.lt (hc : g.Completes (standard processors) c) (hg : g.InRange)
    (hprocessors : 1 ≤ processors)
    (hconnections : g.concurrency = none → ∀ m ∈ g.maxConnections, 2 * processors < m)
    (hslots : g.maxConnections = none → ∀ k ∈ g.concurrency, k < 20 * processors) :
    c.processing.concurrency < c.listener.maxConnections := by
  rw [hc.concurrency, hc.maxConnections]
  change g.concurrency.getD (processors * 2) < g.maxConnections.getD (processors * 2 * 10)
  rcases hk : g.concurrency with _ | k
  · rcases hm : g.maxConnections with _ | m
    · rw [Option.getD_none, Option.getD_none]
      omega
    · have hlt := hconnections hk m hm
      rw [Option.getD_none, Option.getD_some]
      omega
  · rcases hm : g.maxConnections with _ | m
    · have hlt := hslots hm k hk
      rw [Option.getD_none, Option.getD_some]
      omega
    · exact hg.concurrency_lt k hk m hm

end Ranges

/-! ## Texts -/

section Texts

variable {processors : ℕ} {text : String} {ms : Toml.Members} {c : Config}

/-- A text with the right types is judged by the configuration that it gives. -/
lemma parse_of_ofMembers? (htext : Toml.parse? text = some ms)
    (hread : ofMembers? (standard processors) ms = some c) :
    parse processors text = validated c.normalize := by
  simp [parse, htext, hread]

/-- Empty texts do not matter to the rules. -/
lemma problems_normalize (c : Config) : c.normalize.problems = c.problems := by
  unfold problems capacityProblems normalize
  rfl

lemma validated_of_nil (h : c.problems = []) : validated c = .ok c := by
  unfold validated
  rw [h]

lemma validated_of_cons {p : Problem} {ps : List Problem} (h : c.problems = p :: ps) :
    validated c = .error (.invalid (p :: ps)) := by
  unfold validated
  rw [h]

/-- A configuration that breaks the rule about connections and no other has one problem. -/
lemma problems_of_connections (hbroken : Rule.connections.IsBroken c)
    (hkept : ∀ r : Rule, r ≠ .connections → ¬ r.IsBroken c) :
    c.problems = [.tooFewConnections c.listener.maxConnections c.processing.concurrency] := by
  have hreported {r : Rule} : r.IsReported c ↔ r = .connections := by
    constructor
    · intro h
      by_contra hr
      exact hkept r hr h.1
    · rintro rfl
      exact ⟨hbroken, fun h => hkept .concurrency (by decide) h.2⟩
  simp only [problems_eq, hreported]
  rfl

/-- A text with the right types, the settings of which are in range by themselves, is accepted with the
values of the machine for all others, if it gives both the number of connections and the number of slots,
or neither, or one that fits the value of the machine for the other. If it only gives a number of
connections that does not exceed the number of slots of the machine, it is refused for that. -/
theorem accepted_of_given (hprocessors : 1 ≤ processors) (htext : Toml.parse? text = some ms)
    (hread : ofMembers? (standard processors) ms = some c) (hgiven : (Given.ofMembers ms).InRange) :
    (((Given.ofMembers ms).concurrency = none →
        ∀ m ∈ (Given.ofMembers ms).maxConnections, 2 * processors < m) →
      ((Given.ofMembers ms).maxConnections = none →
        ∀ k ∈ (Given.ofMembers ms).concurrency, k < 20 * processors) →
      parse processors text = .ok c.normalize) ∧
    ∀ m, (Given.ofMembers ms).concurrency = none → (Given.ofMembers ms).maxConnections = some m →
      m ≤ 2 * processors →
      parse processors text = .error (.invalid [.tooFewConnections m (2 * processors)]) := by
  have hc := Given.completes_of_ofMembers? hread
  have hkept {r : Rule} (hr : r ≠ .connections) := hc.not_isBroken hgiven hprocessors hr
  rw [parse_of_ofMembers? htext hread]
  refine ⟨fun hconnections hslots => ?_, fun m hslots hconnections hle => ?_⟩
  · have hlt := hc.lt hgiven hprocessors hconnections hslots
    have hnone : c.problems = [] := by
      refine problems_eq_nil_iff.mpr (inRange_iff.mpr fun r => ?_)
      by_cases hr : r = .connections
      · exact hr ▸ hlt.not_ge
      · exact hkept hr
    exact validated_of_nil ((problems_normalize c).trans hnone)
  · have hm : c.listener.maxConnections = m := by rw [hc.maxConnections, hconnections, Option.getD_some]
    have hk : c.processing.concurrency = 2 * processors := by
      rw [hc.concurrency, hslots, Option.getD_none]
      exact Nat.mul_comm _ _
    have hbroken : c.listener.maxConnections ≤ c.processing.concurrency := by
      rw [hm, hk]
      exact hle
    have hone := problems_of_connections hbroken fun r => hkept
    rw [hm, hk, ← problems_normalize] at hone
    exact validated_of_cons hone

/-- A text with an address in a list and as many slots as fit the connections of one processor. -/
def manySlots : String := "listener = ['127.0.0.1:80']\nprocessing.concurrency = 19"

/-- The members of that text. -/
def manySlotsMembers : Toml.Members := [
  ("listener", .array [.text "127.0.0.1:80"]),
  ("processing", .table .dotted [("concurrency", .integer 19)])]

theorem accepted_of_manySlots : ∃ c : Config,
    Toml.parse? manySlots = some manySlotsMembers ∧
    ofMembers? (standard 1) manySlotsMembers = some c ∧
    (Given.ofMembers manySlotsMembers).InRange ∧
    parse 1 manySlots = .ok c.normalize := by
  have htext : Toml.parse? manySlots = some manySlotsMembers := by cbv
  have hread : ofMembers? (standard 1) manySlotsMembers = some { standard 1 with
      listener := ⟨"127.0.0.1:80", 20⟩
      processing := ⟨19⟩ } := by cbv
  have hgiven : Given.ofMembers manySlotsMembers =
      ⟨some "127.0.0.1:80", none, some 19, none, none, none, none, none, none⟩ := by cbv
  have hinRange : (Given.ofMembers manySlotsMembers).InRange := by
    rw [hgiven]
    constructor <;> simp
    decide +kernel
  refine ⟨_, htext, hread, hinRange, ?_⟩
  refine (accepted_of_given le_rfl htext hread hinRange).1 ?_ ?_
  · simp [hgiven]
  · simp [hgiven]

/-- A configuration without more connections than slots does not pass. -/
lemma parse_ne_ok (htext : Toml.parse? text = some ms)
    (hread : ofMembers? (standard processors) ms = some c)
    (hle : c.listener.maxConnections ≤ c.processing.concurrency) :
    parse processors text ≠ .ok c.normalize := by
  intro h
  rw [parse_of_ofMembers? htext hread] at h
  have hnone := (eq_of_validated h).2
  rw [problems_normalize] at hnone
  exact (problems_eq_nil_iff.mp hnone).concurrency_lt.not_ge hle

/-- A number of connections, or a number of slots, that is in range by itself can be out of range with the
value of the machine for the other one. -/
theorem exists_given_refused :
    (∃ text ms c, Toml.parse? text = some ms ∧ ofMembers? (standard 1) ms = some c ∧
      Given.ofMembers ms = ⟨none, some 2, none, none, none, none, none, none, none⟩ ∧
      (Given.ofMembers ms).InRange ∧ parse 1 text ≠ .ok c.normalize) ∧
    ∃ text ms c, Toml.parse? text = some ms ∧ ofMembers? (standard 1) ms = some c ∧
      Given.ofMembers ms = ⟨none, none, some 20, none, none, none, none, none, none⟩ ∧
      (Given.ofMembers ms).InRange ∧ parse 1 text ≠ .ok c.normalize := by
  constructor
  · have htext : Toml.parse? "listener.max_connections = 2" =
        some [("listener", .table .dotted [("max_connections", .integer 2)])] := by cbv
    have hread : ofMembers? (standard 1)
        [("listener", .table .dotted [("max_connections", .integer 2)])] =
          some { standard 1 with listener := ⟨"0.0.0.0:8080", 2⟩ } := by cbv
    have hgiven : Given.ofMembers [("listener", .table .dotted [("max_connections", .integer 2)])] =
        ⟨none, some 2, none, none, none, none, none, none, none⟩ := by cbv
    refine ⟨_, _, _, htext, hread, hgiven, ?_, parse_ne_ok htext hread (le_refl 2)⟩
    rw [hgiven]
    constructor <;> simp
  · have htext : Toml.parse? "processing.concurrency = 20" =
        some [("processing", .table .dotted [("concurrency", .integer 20)])] := by cbv
    have hread : ofMembers? (standard 1)
        [("processing", .table .dotted [("concurrency", .integer 20)])] =
          some { standard 1 with processing := ⟨20⟩ } := by cbv
    have hgiven : Given.ofMembers [("processing", .table .dotted [("concurrency", .integer 20)])] =
        ⟨none, none, some 20, none, none, none, none, none, none⟩ := by cbv
    refine ⟨_, _, _, htext, hread, hgiven, ?_, parse_ne_ok htext hread (le_refl 20)⟩
    rw [hgiven]
    constructor <;> simp

end Texts

end Gateway.Config
