import Mathlib
import Gateway.Proofs.Run.Course

/-!
# Visits

A request visits the gateway from its admission to its exit. Both are seen from outside: a request
publishes the number of slots in use when it is admitted and again when it leaves, and at no other
time. So the visit is what is seen of a request from the first time that it does so
(`Task.visit`), and it is over when it does so for the second time.

That the two agree with where the request stops is `Task.Course.gauges`. That it calls the
collaborators in between and nowhere else is `Task.Course.callsInside`.
-/

namespace Gateway

/-- Whether an event publishes the number of slots in use. -/
def Event.isGauge : Event → Bool
  | .slotsInUse _ => true
  | _ => false

/-- Whether an event is a call to a collaborator. -/
def Event.isCall : Event → Bool
  | .parseCalled => true
  | .downloadCalled .. => true
  | .processCalled .. => true
  | _ => false

namespace Task

/-- What is seen of a request, without the times. -/
def events (t : Task) : List Event := t.trace.map Prod.snd

/-- What is seen of a request from its admission on. -/
def visit (t : Task) : List (Nat × Event) := t.trace.dropWhile fun e => !e.2.isGauge

/-- When a request is admitted, if it is. -/
def grantTime? (t : Task) : Option Nat := t.visit.head?.map Prod.fst

/-- Whether a request has been admitted and has not ended. -/
def isInside (t : Task) : Bool := !t.visit.isEmpty && !t.hasEnded

/-- What is seen in a move is seen after everything else. -/
lemma events_moved (t : Task) (now : Nat) (es : List Event) (p : Phase) :
    (t.moved now es p).events = t.events ++ es := by
  simp [events, moved, Function.comp_def]

/-- A request is admitted when it publishes the number of slots for the first time. -/
lemma visit_eq_nil_iff {t : Task} : t.visit = [] ↔ t.events.countP Event.isGauge = 0 := by
  simp [visit, events, List.countP_eq_zero]

/-- A request that has been admitted has been admitted at some time. -/
lemma grantTime?_eq_none_iff {t : Task} : t.grantTime? = none ↔ t.visit = [] := by
  simp [grantTime?]

/-- A request that has been admitted at some time has been admitted. -/
lemma visit_ne_nil {t : Task} {grant : Nat} (h : t.grantTime? = some grant) : t.visit ≠ [] := by
  rw [Ne, ← grantTime?_eq_none_iff, h]
  exact Option.some_ne_none grant

/-- A move of a request that has been admitted goes on with its visit. -/
lemma visit_moved_of_admitted {t : Task} (h : t.visit ≠ []) (now : Nat) (es : List Event)
    (p : Phase) : (t.moved now es p).visit = t.visit ++ es.map fun x => (now, x) := by
  have hsome : (t.trace.dropWhile fun e => !e.2.isGauge).isEmpty = false := by
    simpa [visit] using h
  rw [visit, moved, List.dropWhile_append, hsome]
  rfl

/-- A request that has been admitted stays admitted at that time. -/
lemma grantTime?_moved_of_admitted {t : Task} (h : t.visit ≠ []) (now : Nat) (es : List Event)
    (p : Phase) : (t.moved now es p).grantTime? = t.grantTime? := by
  rw [grantTime?, visit_moved_of_admitted h, List.head?_append_of_ne_nil _ h, grantTime?]

/-- A turn does not change when a request has been admitted. -/
lemma grantTime?_after {t : Task} {grant : Nat} (h : t.grantTime? = some grant) (now : Nat)
    (turn : Turn) : (t.after now turn).grantTime? = some grant := by
  rw [after, grantTime?_moved_of_admitted (visit_ne_nil h), h]

/-- A move with which a request is admitted begins its visit. -/
lemma visit_moved_of_entry {t : Task} (h : t.visit = []) (now : Nat) {front rest : List Event}
    (hfront : front.countP Event.isGauge = 0) (n : Nat) (p : Phase) :
    (t.moved now (front ++ .slotsInUse n :: rest) p).visit =
      (.slotsInUse n :: rest).map fun x => (now, x) := by
  have hnone : ∀ e ∈ t.trace ++ front.map fun x => (now, x), (!e.2.isGauge) = true := by
    intro e he
    rcases List.mem_append.mp he with he | he
    · exact List.dropWhile_eq_nil_iff.mp h e he
    · obtain ⟨x, hx, rfl⟩ := List.mem_map.mp he
      simpa using List.countP_eq_zero.mp hfront x hx
  rw [visit, moved, List.map_append, ← List.append_assoc, List.dropWhile_append_of_pos hnone]
  rfl

end Task

/-! ## Calls -/

/-- Calls only occur while one of the two events that mark a visit has been seen, if `k` of them have
been seen before. -/
def CallsInside (k : Nat) (es : List Event) : Prop :=
  ∀ front x back, es = front ++ x :: back → x.isCall = true →
    k + front.countP Event.isGauge = 1

namespace CallsInside

variable {k : Nat} {xs ys : List Event}

/-- Where no calls occur they occur in the right place. -/
lemma of_no_calls (h : ∀ x ∈ xs, x.isCall = false) : CallsInside k xs := by
  rintro front x back rfl hx
  rw [h x (by simp)] at hx
  cases hx

/-- Calls that no other mark precedes are in the right place. -/
lemma of_no_gauges (h : ∀ x ∈ xs, x.isGauge = false) : CallsInside 1 xs := by
  rintro front x back rfl -
  rw [Nat.add_eq_left, List.countP_eq_zero]
  intro y hy
  simp [h y (by simp [hy])]

/-- The calls of two lists one after the other. -/
lemma append (hxs : CallsInside k xs) (hys : CallsInside (k + xs.countP Event.isGauge) ys) :
    CallsInside k (xs ++ ys) := by
  intro front x back heq hx
  rcases List.append_eq_append_iff.mp heq with ⟨mid, rfl, hback⟩ | ⟨mid, rfl, hback⟩
  · rw [List.countP_append, ← Nat.add_assoc]
    exact hys mid x back hback hx
  · rcases mid with _ | ⟨y, mid⟩
    · have hlast := hys [] x back hback.symm hx
      rwa [List.append_nil, List.countP_nil, Nat.add_zero] at hlast
    · obtain ⟨rfl, -⟩ := List.cons.inj hback
      exact hxs front x mid rfl hx

end CallsInside

namespace Stage

variable {s : Service} {job : Job} {now : Nat}

/-- Work publishes nothing about the slots. -/
lemma Work.no_gauges {d : Deadline} {k : Point} {w : List Event} {e : Ending}
    (h : Work job now d k w e) : ∀ x ∈ w, x.isGauge = false := by
  intro x hx
  rcases h.mem_cases hx with ⟨stage, c, hask⟩ | ⟨_, rfl⟩ | ⟨_, rfl⟩ | ⟨_, rfl⟩
  · cases hask <;> rfl
  · rfl
  · rfl
  · rfl

/-- A request that leaves publishes the number of slots once. -/
lemma countP_departureEvents (shared : Shared) (img : Bool) :
    (departureEvents shared img).countP Event.isGauge = 1 := by
  cases img <;> rfl

/-- A request that leaves calls nobody any more. -/
lemma departureEvents_no_calls (shared : Shared) (img : Bool) :
    ∀ x ∈ departureEvents shared img, x.isCall = false := by
  cases img <;> simp [departureEvents, Event.isCall]

/-- At an ending nobody is called. -/
lemma Ending.no_calls (shared : Shared) (e : Ending) : ∀ x ∈ e.events shared, x.isCall = false := by
  rcases e with p | ⟨img, f | ⟨r, entry⟩⟩
  · simp [Ending.events]
  · simp only [Ending.events, List.mem_append, List.mem_singleton]
    rintro x (hx | rfl)
    · exact departureEvents_no_calls shared img x hx
    · rfl
  · simp only [Ending.events, List.mem_cons]
    rintro x (rfl | hx)
    · rfl
    · exact departureEvents_no_calls shared img x hx

end Stage

/-! ## Marks of a visit -/

/-- How often a request can have published the number of slots by the time that it stops somewhere:
once on its admission and once when it leaves. -/
def Phase.Gauges : Phase → Nat → Prop
  | .expected, n => n = 0
  | .queued, n => n = 0
  | .downloading .., n => n = 1
  | .processing .., n => n = 1
  | .ended _, n => n = 0 ∨ n = 2

/-- A request that holds a slot has published the number of slots once. -/
lemma Phase.gauges_of_holds {p : Phase} (hp : p.standing = .holds) {n : Nat} :
    p.Gauges n ↔ n = 1 := by
  cases p <;> first | rfl | cases hp

namespace Stage

variable {s : Service} {job : Job} {now : Nat}

/-- Before a request enters it has neither published the number of slots nor called anybody. -/
lemma Entry.gauges {p : Phase} {front : List Event} (h : Entry s job p front) {n : Nat}
    (hn : p.Gauges n) :
    n = 0 ∧ front.countP Event.isGauge = 0 ∧ ∀ x ∈ front, x.isCall = false := by
  cases h with
  | arrives => exact ⟨hn, rfl, by simp [Event.isCall]⟩
  | resumes => exact ⟨hn, rfl, by simp⟩

/-- The work of a request that has been admitted keeps count. -/
lemma Work.gauges {d : Deadline} {k : Point} {w : List Event} {e : Ending}
    (h : Work job now d k w e) (s : Service) (shared : Shared) :
    (e.phase s now).Gauges (1 + (w ++ e.events shared).countP Event.isGauge) ∧
      CallsInside 1 (w ++ e.events shared) := by
  have hnone : w.countP Event.isGauge = 0 := by
    rw [List.countP_eq_zero]
    exact fun x hx => by simp [h.no_gauges x hx]
  refine ⟨?_, .append (.of_no_gauges h.no_gauges) (.of_no_calls (e.no_calls shared))⟩
  rw [List.countP_append, hnone]
  rcases h.standing with ⟨p, rfl, hp⟩ | ⟨img, f | ⟨r, entry⟩, rfl⟩
  · exact (Phase.gauges_of_holds hp).mpr rfl
  · right
    simp [Ending.events, countP_departureEvents, Event.isGauge]
  · right
    simp [Ending.events, countP_departureEvents, Event.isGauge]

/-- A request that ends with its work is answered. -/
lemma Work.exists_response {d : Deadline} {k : Point} {w : List Event} {e : Ending}
    (h : Work job now d k w e) {o : Outcome} (hphase : e.phase s now = .ended o) :
    ∃ resp, o = .response now resp := by
  rcases h.standing with ⟨p, rfl, hp⟩ | ⟨img, f | ⟨r, entry⟩, rfl⟩
  · obtain rfl : p = .ended o := hphase
    cases hp
  · exact ⟨_, (Phase.ended.inj hphase).symm⟩
  · exact ⟨_, (Phase.ended.inj hphase).symm⟩

/-- Every move keeps count, and calls occur where they should. -/
lemma Move.gauges {p p' : Phase} {es : List Event} (h : Move s job now p es p') {n : Nat}
    (hn : p.Gauges n) : p'.Gauges (n + es.countP Event.isGauge) ∧ CallsInside n es := by
  cases h with
  | answered hlogs =>
    obtain rfl : n = 0 := hn
    have hquiet : ∀ x ∈ es, x.isGauge = false ∧ x.isCall = false := by
      intro x hx
      obtain ⟨entry, rfl⟩ := hlogs x hx
      exact ⟨rfl, rfl⟩
    refine ⟨.inl ?_, .of_no_calls fun x hx => (hquiet x hx).2⟩
    rw [Nat.zero_add, List.countP_eq_zero]
    exact fun x hx => by simp [(hquiet x hx).1]
  | queued => exact ⟨hn, .of_no_calls (by simp [Event.isCall])⟩
  | panicked hentry hstart m shared =>
    obtain ⟨rfl, hfront, hcalls⟩ := hentry.gauges hn
    refine ⟨.inr ?_, .append (.of_no_calls hcalls) (.of_no_calls ?_)⟩
    · rw [List.countP_append, hfront, List.countP_cons, countP_departureEvents]
      rfl
    · rintro x (_ | ⟨_, hx⟩)
      · rfl
      · exact departureEvents_no_calls shared false x hx
  | @admitted p front w d e hentry hstart hwork m shared =>
    obtain ⟨rfl, hfront, hcalls⟩ := hentry.gauges hn
    obtain ⟨hphase, hinside⟩ := hwork.gauges s shared
    have hparse : CallsInside 1 ([.parseCalled] ++ (w ++ e.events shared)) :=
      .append (.of_no_gauges (by simp [Event.isGauge])) hinside
    have henter : CallsInside 0 (front ++ ([.slotsInUse m] ++ ([.parseCalled] ++
        (w ++ e.events shared)))) := by
      refine .append (.of_no_calls hcalls) ?_
      rw [hfront]
      exact .append (.of_no_calls (by simp [Event.isCall])) hparse
    have hcount : List.countP Event.isGauge (front ++ ([.slotsInUse m] ++ ([.parseCalled] ++
        (w ++ e.events shared)))) = 1 + (w ++ e.events shared).countP Event.isGauge := by
      rw [List.countP_append, hfront, Nat.zero_add, List.countP_append, List.countP_append]
      exact congrArg (1 + ·) (Nat.zero_add _)
    refine ⟨?_, henter⟩
    rw [Nat.zero_add]
    exact hcount ▸ hphase
  | worked hp htick hwork shared =>
    obtain rfl := (Phase.gauges_of_holds (Phase.standing_of_pending hp)).mp hn
    exact hwork.gauges s shared
  | dropped => exact ⟨.inl hn, .of_no_calls (by simp)⟩
  | left => exact ⟨.inl hn, .of_no_calls (by simp [Event.isCall])⟩
  | stopped hp htick shared =>
    obtain rfl := (Phase.gauges_of_holds (Phase.standing_of_pending hp)).mp hn
    rw [countP_departureEvents]
    exact ⟨.inr rfl, .of_no_calls (departureEvents_no_calls shared _)⟩

end Stage

namespace Task

variable {s : Service} {last : Nat} {t : Task}

/-- What a request has published agrees with where it stops, and it has called the collaborators in
between only. -/
lemma Course.gauges (h : Course s last t) :
    t.phase.Gauges (t.events.countP Event.isGauge) ∧ CallsInside 0 t.events := by
  refine moves (P := fun _ t => t.phase.Gauges (t.events.countP Event.isGauge) ∧
    CallsInside 0 t.events) (fun job => ?_) (fun {_ now t es p} _ ih _ hmove => ?_) h
  · exact ⟨rfl, .of_no_calls (by simp [events, ofJob])⟩
  · obtain ⟨hphase, hinside⟩ := hmove.gauges ih.1
    rw [events_moved, List.countP_append]
    exact ⟨hphase, ih.2.append (by rwa [Nat.zero_add])⟩

/-! ## Stays -/

end Task

/-- How the visit of a request that was admitted at a millisecond can have gone by the time of its
last turn: what has been seen of it, and where it stops. -/
inductive Stay (s : Service) (job : Job) (grant : Nat) : Nat → List (Nat × Event) → Phase → Prop
  /-- Its deadline is out of the range of the clock. -/
  | panicked (hstart : Deadline.start? (instantOf grant) s.writeTimeout = none) (n : Nat)
      (shared : Shared) :
      Stay s job grant grant
        ((.slotsInUse n :: Stage.departureEvents shared false).map fun x => (grant, x))
        (.ended .panicked)
  /-- It is admitted and works. -/
  | admitted {d : Deadline} {w : List Event} {e : Stage.Ending}
      (hstart : Deadline.start? (instantOf grant) s.writeTimeout = some d)
      (hwork : Stage.Work job grant d (.before .download) w e) (n : Nat) (shared : Shared) :
      Stay s job grant grant
        ((.slotsInUse n :: .parseCalled :: (w ++ e.events shared)).map fun x => (grant, x))
        (e.phase s grant)
  /-- A collaborator is done, and it works. -/
  | worked {last : Nat} {v : List (Nat × Event)} {p : Phase} {q : Pending} {w : List Event}
      {e : Stage.Ending} (hstay : Stay s job grant last v p) (hp : p.pending? = some q)
      (hle : last ≤ q.tick)
      (hwork : Stage.Work job q.tick q.deadline (.after q.stage q.result) w e) (shared : Shared) :
      Stay s job grant q.tick (v ++ (w ++ e.events shared).map fun x => (q.tick, x))
        (e.phase s q.tick)
  /-- It is cancelled. -/
  | stopped {last now : Nat} {v : List (Nat × Event)} {p : Phase} {q : Pending}
      (hstay : Stay s job grant last v p) (hp : p.pending? = some q) (hle : last ≤ now)
      (htick : now < q.tick) (shared : Shared) :
      Stay s job grant now
        (v ++ (Stage.departureEvents shared (Stage.hasImage q.stage)).map fun x => (now, x))
        (.ended .cancelled)

namespace Stay

variable {s : Service} {job : Job} {grant last : Nat} {v : List (Nat × Event)} {p : Phase}

/-- A request is only given up if its deadline is out of the range of the clock, and then at once and
before anybody is called. -/
lemma start_cases (h : Stay s job grant last v p) :
    (Deadline.start? (instantOf grant) s.writeTimeout = none ∧ p = .ended .panicked ∧
        ∀ e ∈ v, e.2.isCall = false) ∨
      (∃ d, Deadline.start? (instantOf grant) s.writeTimeout = some d) ∧ p ≠ .ended .panicked := by
  have hgoes {now : Nat} {d : Deadline} {k : Stage.Point} {w : List Event} {e : Stage.Ending}
      (hwork : Stage.Work job now d k w e) : e.phase s now ≠ .ended .panicked := by
    intro hphase
    obtain ⟨resp, hresp⟩ := hwork.exists_response hphase
    cases hresp
  induction h with
  | panicked hstart n shared =>
    refine .inl ⟨hstart, rfl, fun e he => ?_⟩
    obtain ⟨x, hx, rfl⟩ := List.mem_map.mp he
    rcases List.mem_cons.mp hx with rfl | hx
    · rfl
    · exact Stage.departureEvents_no_calls shared false x hx
  | admitted hstart hwork => exact .inr ⟨⟨_, hstart⟩, hgoes hwork⟩
  | worked _ hp _ hwork _ ih =>
    rcases ih with ⟨-, rfl, -⟩ | ⟨hstart, -⟩
    · cases hp
    · exact .inr ⟨hstart, hgoes hwork⟩
  | stopped _ hp _ _ _ ih =>
    rcases ih with ⟨-, rfl, -⟩ | ⟨hstart, -⟩
    · cases hp
    · exact .inr ⟨hstart, nofun⟩

end Stay

/-- What is seen of a request from its admission on is a visit. -/
theorem Task.Course.stay {s : Service} {last : Nat} {t : Task} (h : Course s last t) {grant : Nat}
    (hgrant : t.grantTime? = some grant) : Stay s t.job grant last t.visit t.phase := by
  refine moves (P := fun last t => ∀ grant, t.grantTime? = some grant →
    Stay s t.job grant last t.visit t.phase) (fun job => ?_)
    (fun {last now t es p} ht ih hle hmove => ?_) h grant hgrant
  · intro grant hgrant
    cases hgrant
  · intro grant hgrant
    have hgauges := ht.gauges.1
    have hstay := ih grant
    generalize hphase : t.phase = p₀ at hmove hgauges hstay
    -- a move without the mark leaves a request outside that was outside before
    have hquiet (hnone : t.events.countP Event.isGauge = 0) (hes : es.countP Event.isGauge = 0) :
        False := by
      have hvisit : (t.moved now es p).visit = [] := by
        rw [visit_eq_nil_iff, events_moved, List.countP_append, hnone, hes]
      rw [grantTime?, hvisit] at hgrant
      cases hgrant
    have hinside {q : Pending} (hq : p₀.pending? = some q) : t.visit ≠ [] := by
      rw [Ne, visit_eq_nil_iff, (Phase.gauges_of_holds (Phase.standing_of_pending hq)).mp hgauges]
      exact one_ne_zero
    cases hmove with
    | answered hlogs =>
      refine (hquiet hgauges (List.countP_eq_zero.mpr fun x hx => ?_)).elim
      obtain ⟨entry, rfl⟩ := hlogs x hx
      simp [Event.isGauge]
    | queued | dropped | left => exact (hquiet hgauges rfl).elim
    | @panicked _ front hentry hstart n shared =>
      obtain ⟨hnone, hfront, -⟩ := hentry.gauges hgauges
      have hvisit := @visit_moved_of_entry t (visit_eq_nil_iff.mpr hnone) now front
        (Stage.departureEvents shared false) hfront n (.ended .panicked)
      rw [grantTime?, hvisit] at hgrant
      obtain rfl : now = grant := Option.some.inj hgrant
      rw [hvisit]
      exact .panicked hstart n shared
    | @admitted _ front w d e hentry hstart hwork n shared =>
      obtain ⟨hnone, hfront, -⟩ := hentry.gauges hgauges
      have hvisit := @visit_moved_of_entry t (visit_eq_nil_iff.mpr hnone) now front
        (.parseCalled :: (w ++ e.events shared)) hfront n (e.phase s now)
      rw [grantTime?, hvisit] at hgrant
      obtain rfl : now = grant := Option.some.inj hgrant
      rw [hvisit]
      exact .admitted hstart hwork n shared
    | worked hp htick hwork shared =>
      rw [grantTime?_moved_of_admitted (hinside hp)] at hgrant
      rw [visit_moved_of_admitted (hinside hp), htick]
      exact .worked (hstay hgrant) hp (htick ▸ hle) (htick ▸ hwork) shared
    | stopped hp htick shared =>
      rw [grantTime?_moved_of_admitted (hinside hp)] at hgrant
      rw [visit_moved_of_admitted (hinside hp)]
      exact .stopped (hstay hgrant) hp hle htick shared

end Gateway
