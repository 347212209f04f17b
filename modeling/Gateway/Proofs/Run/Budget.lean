import Mathlib
import Gateway.Proofs.Run.Reachable
import Gateway.Proofs.Run.Visit

/-!
# The time of a visit

A request has a fixed time from its admission on, and nothing prolongs it: what is seen of it lies in
that time, and it has ended when the time is over (`Run.inBudget_of_reachable`). The reason is that a
request only ever waits for a call made under its deadline, and that a call under a deadline ends by
then. A request that succeeds looks at its deadline last of all, so that it succeeds strictly before
the end; and if a call is still unanswered at the end, the request ends there with a timeout.

The time begins with the admission, however long the request has waited for it: a download is called
with the whole of it left.
-/

namespace Gateway

/-- Under a deadline of whole milliseconds a call ends by the last of them. -/
lemma Deadline.tickOf_le_of_run {α : Type} {start limit now ending : Nat} {c : Call α}
    {result : Except Failure α} (hnow : now < limit)
    (h : (between start limit).run (instantOf now) c = (ending, result)) :
    tickOf ending ≤ limit := by
  by_cases hlate : c.IsLate now limit
  · obtain ⟨rfl, -⟩ := Prod.mk.inj ((run_of_late hnow hlate).symm.trans h)
    exact (tickOf_instantOf limit).le
  · obtain ⟨delay, hdelay, hdue⟩ := Call.exists_delay_of_not_isLate hlate
    obtain ⟨rfl, -⟩ := Prod.mk.inj ((run_of_due hdelay hdue).symm.trans h)
    exact (tickOf_instantOf _).le.trans hdue

namespace Stage

/-- Which call to a collaborator an event shows. -/
inductive Shows (job : Job) : Event → Call Bytes → Prop
  | download (url : String) (left : Nat) :
      Shows job (.downloadCalled url left) job.collaborators.download
  | process (size left : Nat) {source : Bytes}
      (hsource : job.collaborators.download.answer = .ok source) :
      Shows job (.processCalled size left) (job.collaborators.process source)

variable {s : Service} {job : Job} {now grant limit : Nat} {d : Deadline} {k : Point}
  {w : List Event} {e : Ending} {x : Event} {c : Call Bytes}

/-- An event shows one call. -/
lemma Shows.unique {c' : Call Bytes} (h : Shows job x c) (h' : Shows job x c') : c = c' := by
  cases h with
  | download =>
    cases h'
    rfl
  | process _ _ hsource =>
    cases h' with
    | process _ _ hsource' =>
      obtain rfl := Except.ok.inj (hsource.symm.trans hsource')
      rfl

/-- The call that a request makes is the one that is shown. -/
lemma Asks.shows {stage : Gateway.Stage} (h : Asks job now d stage x c) : Shows job x c := by
  cases h with
  | download url => exact .download url _
  | process hsource => exact .process _ _ hsource

/-- Where calls are shown, calls occur. -/
lemma Shows.isCall (h : Shows job x c) : x.isCall = true := by
  cases h <;> rfl

/-! ## Work under a deadline -/

/-- While a request works nothing is logged. -/
lemma Work.no_logs (h : Work job now d k w e) (entry : LogEntry) : .log entry ∉ w := by
  intro hx
  rcases h.mem_cases hx with ⟨stage, c, hask⟩ | ⟨_, heq⟩ | ⟨_, heq⟩ | ⟨_, heq⟩
  · cases hask
  · cases heq
  · cases heq
  · cases heq

/-- A request that leaves logs nothing when it gives back what it holds. -/
lemma departureEvents_no_logs (shared : Shared) (img : Bool) (entry : LogEntry) :
    .log entry ∉ departureEvents shared img := by
  cases img <;> simp [departureEvents]

/-- A request only succeeds while its deadline is open, and what is logged of it has the status of its
response. -/
lemma Work.success (h : Work job now d k w e) {img : Bool} {r : Http.Response} {entry : LogEntry}
    (he : e = .leaves img (.ok (r, entry))) :
    d.isExpired (instantOf now) = false ∧ ∃ message, entry = .responded r.status message := by
  induction h with
  | fails | counts | spoils | waits => cases he
  | calls _ _ _ _ _ ih | downloaded _ _ ih | processed _ _ ih | quiet _ _ ih => exact ih he
  | unchanged _ _ hopen | encodes _ _ hopen =>
    obtain ⟨-, rfl, rfl⟩ : _ ∧ _ = r ∧ _ = entry := by simpa using he
    exact ⟨hopen, _, rfl⟩

/-- After a failed call a request leaves with the failure. -/
lemma Work.of_error {stage : Gateway.Stage} {f : Failure}
    (h : Work job now d (.after stage (.error f)) w e) :
    w = [.errorCounted stage] ∧ e = .leaves (hasImage stage) (.error f) := by
  cases h
  exact ⟨rfl, rfl⟩

/-- The download is only called before anything else. -/
lemma Work.download {url : String} {left : Nat} (h : Work job now d k w e)
    (hx : .downloadCalled url left ∈ w) :
    k = .before .download ∧ left = Deadline.tickOf (d.remaining (instantOf now)).nanos := by
  induction h with
  | fails | unchanged | spoils | encodes | counts => simp at hx
  | calls hask _ _ _ _ ih =>
    rcases List.mem_cons.mp hx with rfl | hx
    · cases hask
      exact ⟨rfl, rfl⟩
    · cases (ih hx).1
  | waits hask =>
    obtain rfl := List.mem_singleton.mp hx
    cases hask
    exact ⟨rfl, rfl⟩
  | downloaded _ _ ih | processed _ _ ih =>
    cases (ih (by simpa using hx)).1
  | quiet _ _ ih => cases (ih hx).1

/-- A call that is still unanswered at the end of the time makes the request wait until then, for a
timeout. -/
lemma Work.timeout (h : Work job now (.between grant limit) k w e) (hx : x ∈ w)
    (hc : Shows job x c) (hlate : c.IsLate now limit) :
    ∃ p q, e = .waits p ∧ p.pending? = some q ∧ q.tick = limit ∧
      q.result = .error (.timeout (.ofMillis (limit - grant))) := by
  induction h with
  | fails | unchanged | spoils | encodes => cases hx
  | counts =>
    obtain rfl := List.mem_singleton.mp hx
    cases hc
  | calls hask hopen hrun htick _ ih =>
    rcases List.mem_cons.mp hx with rfl | hx
    · -- the call would have ended at once
      obtain rfl := hask.shows.unique hc
      have hnow := Deadline.lt_of_isExpired_between hopen
      obtain ⟨rfl, -⟩ := Prod.mk.inj ((Deadline.run_of_late hnow hlate).symm.trans hrun)
      rw [Deadline.tickOf_instantOf] at htick
      exact absurd htick hnow.ne'
    · exact ih hx
  | waits hask hopen hrun htick hp =>
    obtain rfl := List.mem_singleton.mp hx
    obtain rfl := hask.shows.unique hc
    have hnow := Deadline.lt_of_isExpired_between hopen
    obtain ⟨rfl, rfl⟩ := Prod.mk.inj ((Deadline.run_of_late hnow hlate).symm.trans hrun)
    exact ⟨_, _, rfl, hp, Deadline.tickOf_instantOf limit, rfl⟩
  | downloaded _ _ ih | processed _ _ ih =>
    rcases List.mem_cons.mp hx with rfl | hx
    · cases hc
    · exact ih hx
  | quiet _ _ ih => exact ih hx

/-- What a request waits for at the end of its work ends in time. -/
lemma Work.pending_between (h : Work job now (.between grant limit) k w e) {q : Pending}
    (hq : (e.phase s now).pending? = some q) :
    q.deadline = .between grant limit ∧ now < q.tick ∧ q.tick ≤ limit := by
  obtain ⟨hd, x, c, ending, -, -, hopen, hrun, htick, hlt⟩ := h.pending (Ending.eq_waits hq) hq
  rw [hd] at hopen hrun
  have hnow := Deadline.lt_of_isExpired_between hopen
  exact ⟨hd, hlt, htick ▸ Deadline.tickOf_le_of_run hnow hrun⟩

/-! ## Responses of admitted requests -/

/-- A request that answers at the end of its work has succeeded or failed, and has logged it. -/
lemma Work.response (h : Work job now d k w e) (shared : Shared) {finish : Nat}
    {r : Http.Response} (hphase : e.phase s now = .ended (.response finish r)) :
    finish = now ∧ ((∃ message, .log (.responded r.status message) ∈ e.events shared) ∨
      ∃ f, .log (.failed f) ∈ e.events shared ∧ r.status = f.status ∧
        r.body = Utf8.ofString f.publicMessage) := by
  rcases h.standing with ⟨p, rfl, hp⟩ | ⟨img, f | ⟨r', entry⟩, rfl⟩
  · obtain rfl : p = _ := hphase
    cases hp
  · obtain ⟨rfl, rfl⟩ : now = finish ∧ _ = r := by simpa [Ending.phase, answered] using hphase
    exact ⟨rfl, .inr ⟨f, by simp [Ending.events], rfl, rfl⟩⟩
  · obtain ⟨rfl, rfl⟩ : now = finish ∧ _ = r := by simpa [Ending.phase, answered] using hphase
    obtain ⟨-, message, rfl⟩ := h.success rfl
    exact ⟨rfl, .inl ⟨message, by simp [Ending.events]⟩⟩

/-- A request that logs a success at the end of its work answers in time. -/
lemma Work.success_of_log (h : Work job now d k w e) {shared : Shared} {status : Http.Status}
    {message : String} (hx : .log (.responded status message) ∈ w ++ e.events shared) :
    d.isExpired (instantOf now) = false ∧
      ∃ r, e.phase s now = .ended (.response now r) ∧ r.status = status := by
  have hlog := (List.mem_append.mp hx).resolve_left (h.no_logs _)
  rcases h.standing with ⟨p, rfl, hp⟩ | ⟨img, f | ⟨r, entry⟩, rfl⟩
  · cases hlog
  · rcases List.mem_append.mp hlog with hlog | hlog
    · exact absurd hlog (departureEvents_no_logs shared img _)
    · simp at hlog
  · obtain ⟨hopen, message', rfl⟩ := h.success rfl
    rcases List.mem_cons.mp hlog with heq | hlog
    · obtain ⟨rfl, -⟩ : status = r.status ∧ _ := by simpa using heq
      exact ⟨hopen, _, rfl, rfl⟩
    · exact absurd hlog (departureEvents_no_logs shared img _)

end Stage

/-! ## Visits under a deadline -/

/-- What is seen in one turn is seen at one time. -/
lemma mem_map_time {es : List Event} {now time : Nat} {x : Event} :
    (time, x) ∈ es.map (fun x => (now, x)) ↔ time = now ∧ x ∈ es := by
  simp [eq_comm, and_comm]

namespace Stay

variable {s : Service} {job : Job} {grant last limit : Nat} {v : List (Nat × Event)} {p : Phase}

/-- What a request waits for during its visit ends in time. -/
lemma pending (h : Stay s job grant last v p) (hlimit : s.writeTimeout = .ofMillis limit)
    {q : Pending} (hq : p.pending? = some q) :
    q.deadline = .between grant (grant + limit) ∧ last < q.tick ∧ q.tick ≤ grant + limit := by
  induction h generalizing q with
  | panicked | stopped => cases hq
  | admitted hstart hwork =>
    rw [hlimit] at hstart
    obtain rfl := Deadline.eq_between_of_start? hstart
    exact hwork.pending_between hq
  | worked _ hp _ hwork _ ih =>
    rw [(ih hp).1] at hwork
    exact hwork.pending_between hq

/-- A request that is still there waits for a collaborator. -/
lemma exists_pending (h : Stay s job grant last v p) (hp : ∀ o, p ≠ .ended o) :
    ∃ q, p.pending? = some q := by
  have hwaits : ∀ {now d k w e}, Stage.Work job now d k w e → (∀ o, e.phase s now ≠ .ended o) →
      ∃ q, (e.phase s now).pending? = some q := by
    intro now d k w e hwork hp
    exact Phase.exists_pending ((hwork.phase_cases s).resolve_right (not_exists.mpr hp))
  cases h with
  | panicked | stopped => exact absurd rfl (hp _)
  | admitted hstart hwork => exact hwaits hwork hp
  | worked hstay _ _ hwork => exact hwaits hwork hp

/-- A visit lies in its time. -/
lemma within (h : Stay s job grant last v p) (hlimit : s.writeTimeout = .ofMillis limit) :
    grant ≤ last ∧ last ≤ grant + limit ∧ ∀ x ∈ v, grant ≤ x.1 ∧ x.1 ≤ last := by
  have hstep : ∀ {last now : Nat} {v : List (Nat × Event)} (es : List Event), grant ≤ last →
      last ≤ now → (∀ x ∈ v, grant ≤ x.1 ∧ x.1 ≤ last) →
      ∀ x ∈ v ++ es.map (fun x => (now, x)), grant ≤ x.1 ∧ x.1 ≤ now := by
    intro last now v es hgrant hle hv x hx
    rcases List.mem_append.mp hx with hx | hx
    · exact ⟨(hv x hx).1, (hv x hx).2.trans hle⟩
    · obtain ⟨y, -, rfl⟩ := List.mem_map.mp hx
      exact ⟨hgrant.trans hle, le_rfl⟩
  induction h with
  | panicked | admitted =>
    refine ⟨le_rfl, Nat.le_add_right _ _, ?_⟩
    rintro ⟨time, x⟩ hx
    obtain ⟨rfl, -⟩ := mem_map_time.mp hx
    exact ⟨le_rfl, le_rfl⟩
  | worked hstay hp hle _ _ ih =>
    obtain ⟨hgrant, -, hv⟩ := ih
    obtain ⟨-, -, htick⟩ := hstay.pending hlimit hp
    exact ⟨hgrant.trans hle, htick, hstep _ hgrant hle hv⟩
  | stopped hstay hp hle hlt _ ih =>
    obtain ⟨hgrant, -, hv⟩ := ih
    obtain ⟨-, -, htick⟩ := hstay.pending hlimit hp
    exact ⟨hgrant.trans hle, hlt.le.trans htick, hstep _ hgrant hle hv⟩

/-- A visit that ends in a response ends in a success or a failure. -/
lemma response (h : Stay s job grant last v p) {finish : Nat} {r : Http.Response}
    (hphase : p = .ended (.response finish r)) :
    finish = last ∧ ((∃ message, (finish, .log (.responded r.status message)) ∈ v) ∨
      ∃ f, (finish, .log (.failed f)) ∈ v ∧ r.status = f.status ∧
        r.body = Utf8.ofString f.publicMessage) := by
  cases h with
  | panicked | stopped => cases hphase
  | admitted hstart hwork n shared =>
    obtain ⟨rfl, ⟨message, hx⟩ | ⟨f, hx, hreport⟩⟩ := hwork.response shared hphase
    · exact ⟨rfl, .inl ⟨message, mem_map_time.mpr ⟨rfl, by simp [hx]⟩⟩⟩
    · exact ⟨rfl, .inr ⟨f, mem_map_time.mpr ⟨rfl, by simp [hx]⟩, hreport⟩⟩
  | worked hstay hp hle hwork shared =>
    obtain ⟨rfl, ⟨message, hx⟩ | ⟨f, hx, hreport⟩⟩ := hwork.response shared hphase
    · exact ⟨rfl, .inl ⟨message,
        List.mem_append_right _ (mem_map_time.mpr ⟨rfl, by simp [hx]⟩)⟩⟩
    · exact ⟨rfl, .inr ⟨f,
        List.mem_append_right _ (mem_map_time.mpr ⟨rfl, by simp [hx]⟩), hreport⟩⟩

/-- A visit that succeeds ends strictly before the end of its time. -/
lemma success (h : Stay s job grant last v p) (hlimit : s.writeTimeout = .ofMillis limit)
    {time : Nat} {status : Http.Status} {message : String}
    (hx : (time, .log (.responded status message)) ∈ v) :
    time < grant + limit ∧ ∃ r, p = .ended (.response time r) ∧ r.status = status := by
  have hdeparture : ∀ {now shared img}, (time, .log (.responded status message)) ∉
      (Stage.departureEvents shared img).map fun x => (now, x) := fun hx =>
    Stage.departureEvents_no_logs _ _ _ (mem_map_time.mp hx).2
  induction h with
  | panicked _ n shared =>
    rcases List.mem_cons.mp hx with hx | hx
    · cases hx
    · exact absurd hx hdeparture
  | @admitted d w e hstart hwork n shared =>
    rw [hlimit] at hstart
    obtain rfl := Deadline.eq_between_of_start? hstart
    obtain ⟨rfl, hseen⟩ := mem_map_time.mp hx
    have hlog : .log (.responded status message) ∈ w ++ e.events shared := by simpa using hseen
    obtain ⟨hopen, hresponse⟩ := hwork.success_of_log hlog
    exact ⟨Deadline.lt_of_isExpired_between hopen, hresponse⟩
  | worked hstay hp hle hwork shared ih =>
    rcases List.mem_append.mp hx with hx | hx
    · obtain ⟨-, r, rfl, -⟩ := ih hx
      cases hp
    · rw [(hstay.pending hlimit hp).1] at hwork
      obtain ⟨rfl, hlog⟩ := mem_map_time.mp hx
      obtain ⟨hopen, hresponse⟩ := hwork.success_of_log hlog
      exact ⟨Deadline.lt_of_isExpired_between hopen, hresponse⟩
  | stopped hstay hp hle hlt shared ih =>
    rcases List.mem_append.mp hx with hx | hx
    · obtain ⟨-, r, rfl, -⟩ := ih hx
      cases hp
    · exact absurd hx hdeparture

/-- If a call is still unanswered at the end of the time, the visit ends there with a timeout, unless
it is cancelled before. -/
lemma timeout (h : Stay s job grant last v p) (hlimit : s.writeTimeout = .ofMillis limit)
    {start : Nat} {x : Event} {c : Call Bytes} (hx : (start, x) ∈ v) (hc : Stage.Shows job x c)
    (hlate : c.IsLate start (grant + limit)) :
    (∃ q, p.pending? = some q ∧ q.tick = grant + limit ∧
        q.result = .error (.timeout (.ofMillis limit))) ∨
      p = .ended .cancelled ∨
      p = Stage.answered s (grant + limit) (.ofFailure (.timeout (.ofMillis limit))) ∧
        (grant + limit, .log (.failed (.timeout (.ofMillis limit)))) ∈ v := by
  have hnone : ∀ {es : List Event}, (∀ y ∈ es, y.isCall = false) → x ∉ es := by
    intro es hes hx
    have hcall := hes x hx
    rw [hc.isCall] at hcall
    cases hcall
  induction h with
  | panicked _ n shared =>
    obtain ⟨-, hx⟩ := mem_map_time.mp hx
    refine absurd hx (hnone ?_)
    rintro y (_ | ⟨_, hy⟩)
    · rfl
    · exact Stage.departureEvents_no_calls shared false y hy
  | @admitted d w e hstart hwork n shared =>
    rw [hlimit] at hstart
    obtain rfl := Deadline.eq_between_of_start? hstart
    obtain ⟨rfl, hseen⟩ := mem_map_time.mp hx
    have hmade : x ∈ w := by
      simp only [List.mem_cons, List.mem_append] at hseen
      rcases hseen with rfl | rfl | hw | hlast
      · cases hc
      · cases hc
      · exact hw
      · exact absurd hlast (hnone (e.no_calls shared))
    obtain ⟨p, q, rfl, hq, htick, hresult⟩ := hwork.timeout hmade hc hlate
    rw [Nat.add_sub_cancel_left] at hresult
    exact .inl ⟨q, hq, htick, hresult⟩
  | @worked last v p q w e hstay hp hle hwork shared ih =>
    rcases List.mem_append.mp hx with hx | hx
    · rcases ih hx with ⟨q', hq', htick, hresult⟩ | rfl | ⟨rfl, -⟩
      · -- the call was made in an earlier turn, and it is the one that has just timed out
        obtain rfl := Option.some.inj (hp.symm.trans hq')
        rw [hresult] at hwork
        obtain ⟨rfl, rfl⟩ := hwork.of_error
        refine .inr (.inr ⟨congrArg (Stage.answered s · _) htick, List.mem_append_right _ ?_⟩)
        exact mem_map_time.mpr ⟨htick.symm, by simp [Stage.Ending.events]⟩
      · cases hp
      · cases hp
    · -- the call is made in this turn, which therefore ends in waiting
      obtain ⟨rfl, hseen⟩ := mem_map_time.mp hx
      have hmade := (List.mem_append.mp hseen).resolve_right (hnone (e.no_calls shared))
      rw [(hstay.pending hlimit hp).1] at hwork
      obtain ⟨p, q', rfl, hq, htick, hresult⟩ := hwork.timeout hmade hc hlate
      rw [Nat.add_sub_cancel_left] at hresult
      exact .inl ⟨q', hq, htick, hresult⟩
  | stopped => exact .inr (.inl rfl)

/-- The download is called at the admission, with the whole time left. -/
lemma download (h : Stay s job grant last v p) (hlimit : s.writeTimeout = .ofMillis limit)
    {start : Nat} {url : String} {left : Nat} (hx : (start, .downloadCalled url left) ∈ v) :
    start = grant ∧ left = limit := by
  have hdeparture : ∀ {now shared img}, (start, .downloadCalled url left) ∉
      (Stage.departureEvents shared img).map fun x => (now, x) := by
    intro now shared img hx
    cases Stage.departureEvents_no_calls shared img _ (mem_map_time.mp hx).2
  have hending : ∀ {shared} {e : Stage.Ending}, .downloadCalled url left ∉ e.events shared := by
    intro shared e hx
    cases e.no_calls shared _ hx
  induction h with
  | panicked _ n shared =>
    rcases List.mem_cons.mp hx with hx | hx
    · cases hx
    · exact absurd hx hdeparture
  | @admitted d w e hstart hwork n shared =>
    rw [hlimit] at hstart
    obtain rfl := Deadline.eq_between_of_start? hstart
    obtain ⟨rfl, hseen⟩ := mem_map_time.mp hx
    have hmade : .downloadCalled url left ∈ w := by simpa [hending] using hseen
    obtain ⟨-, hleft⟩ := hwork.download hmade
    rw [Deadline.tickOf_remaining_between, Nat.add_sub_cancel_left] at hleft
    exact ⟨rfl, hleft⟩
  | worked hstay hp hle hwork shared ih =>
    rcases List.mem_append.mp hx with hx | hx
    · exact ih hx
    · obtain ⟨-, hx⟩ := mem_map_time.mp hx
      have hmade := (List.mem_append.mp hx).resolve_right hending
      cases (hwork.download hmade).1
  | stopped hstay hp hle hlt shared ih =>
    rcases List.mem_append.mp hx with hx | hx
    · exact ih hx
    · exact absurd hx hdeparture

end Stay

/-! ## The time of a request in a run -/

/-- The milliseconds that a configuration allows a request from its admission on. -/
def Config.budget (c : Config) : Nat := 1000 * c.timeouts.writeSecs

/-- The time limit of a configured service. -/
lemma Service.writeTimeout_ofConfig (c : Config) (epoch : Nat) :
    (Service.ofConfig c epoch).writeTimeout = .ofMillis c.budget :=
  ofSecs_eq_ofMillis c.timeouts.writeSecs

/-- Whether a request makes a call at a millisecond during its visit. -/
def Task.Calls (t : Task) (start : Nat) (c : Call Bytes) : Prop :=
  ∃ x, (start, x) ∈ t.visit ∧ Stage.Shows t.job x c

namespace Run

/-- What a limit in milliseconds promises to a request that was admitted at a millisecond, at a point
of a run. -/
structure InBudget (limit : Nat) (r : Run) (t : Task) (grant : Nat) : Prop where
  /-- Everything that is seen of it from its admission on is seen in time. -/
  within : ∀ e ∈ t.visit, grant ≤ e.1 ∧ e.1 ≤ grant + limit
  /-- The clock does not pass the end of its time before it has ended. -/
  open_until : t.hasEnded = false → r.clock ≤ grant + limit
  /-- When everything that is due at the end of its time has happened, it has ended. -/
  ends : ∀ horizon, grant + limit ≤ horizon → r.StoppedAt horizon → t.hasEnded = true
  /-- If it is answered, this happens in time, and it has succeeded or failed. -/
  answered : ∀ finish resp, t.outcome? = some (.response finish resp) →
    grant ≤ finish ∧ finish ≤ grant + limit ∧
      ((∃ message, (finish, .log (.responded resp.status message)) ∈ t.visit) ∨
        ∃ f, (finish, .log (.failed f)) ∈ t.visit ∧ resp.status = f.status ∧
          resp.body = Utf8.ofString f.publicMessage)
  /-- If it succeeds, it is answered strictly before the end of its time. -/
  succeeds : ∀ time status message, (time, .log (.responded status message)) ∈ t.visit →
    time < grant + limit ∧ ∃ resp, t.outcome? = some (.response time resp) ∧ resp.status = status
  /-- If a call is still unanswered at the end of its time, it has ended there with a timeout, unless
  it has been cancelled or has not ended yet. -/
  times_out : ∀ start c, t.Calls start c → c.IsLate start (grant + limit) →
    ∀ o, t.outcome? = some o → o = .cancelled ∨
      ∃ resp, o = .response (grant + limit) resp ∧ resp.status = .unavailable ∧
        resp.body = Utf8.ofString "Timeout" ∧
        (grant + limit, .log (.failed (.timeout (.ofMillis limit)))) ∈ t.visit
  /-- However long it has waited for its admission, its download begins with the whole time left. -/
  starts_full : ∀ start url left, (start, .downloadCalled url left) ∈ t.visit →
    start = grant ∧ left = limit

/-- Whatever the collaborators and the other requests do, a request that has been admitted ends in the
time that the configuration allows, and with a timeout if a call takes longer than that. -/
theorem inBudget_of_reachable {c : Config} {epoch : Nat} {jobs : List Job} {r : Run}
    (hreach : Reachable (.ofConfig c epoch) jobs r) {t : Task} (ht : t ∈ r.tasks) {grant : Nat}
    (hgrant : t.grantTime? = some grant) : InBudget c.budget r t grant := by
  have hlimit := Service.writeTimeout_ofConfig c epoch
  have hr := hreach.sound
  obtain ⟨last, -, hcourse⟩ := hr.course t ht
  have hstay := hcourse.stay hgrant
  obtain ⟨hge, hle, hin⟩ := hstay.within hlimit
  have htimer (hopen : t.hasEnded = false) :
      ∃ a, t.timer? = some a ∧ a.time ≤ grant + c.budget := by
    have hphase : ∀ o, t.phase ≠ .ended o := by
      intro o ho
      simp [Task.hasEnded, ho] at hopen
    obtain ⟨q, hq⟩ := hstay.exists_pending hphase
    obtain ⟨a, ha, htime⟩ :=
      Task.exists_timer?_le (.inl (Task.ownTime?_eq_some_iff.mpr (.inr ⟨q, hq, rfl⟩)))
    exact ⟨a, ha, htime.trans (hstay.pending hlimit hq).2.2⟩
  refine ⟨fun e he => ⟨(hin e he).1, (hin e he).2.trans hle⟩, fun hopen => ?_,
    fun horizon hhorizon hstopped => ?_, fun finish resp ho => ?_,
    fun time status message hx => ?_, fun start call hcalls hlate o ho => ?_,
    fun start url left hx => hstay.download hlimit hx⟩
  · obtain ⟨a, ha, htime⟩ := htimer hopen
    exact (hr.punctual t ht a ha).trans htime
  · by_contra hopen
    obtain ⟨a, ha, htime⟩ := htimer (Bool.eq_false_of_not_eq_true hopen)
    have hlater := (next?_eq_none hstopped.2).2 t ht a ha
    omega
  · obtain ⟨rfl, hresponse⟩ := hstay.response (Task.outcome?_eq_some_iff.mp ho)
    exact ⟨hge, hle, hresponse⟩
  · obtain ⟨hlt, resp, hphase, hstatus⟩ := hstay.success hlimit hx
    exact ⟨hlt, resp, by simp [Task.outcome?, hphase], hstatus⟩
  · obtain ⟨x, hx, hshows⟩ := hcalls
    have hphase := Task.outcome?_eq_some_iff.mp ho
    rcases hstay.timeout hlimit hx hshows hlate with ⟨q, hq, -⟩ | hcancelled | ⟨htimeout, hlog⟩
    · rw [hphase] at hq
      cases hq
    · exact .inl (Phase.ended.inj (hphase.symm.trans hcancelled))
    · refine .inr ⟨_, Phase.ended.inj (hphase.symm.trans htimeout), rfl, ?_, hlog⟩
      simp only [Http.Response.ofFailure, Http.Response.plain, Failure.timeout]

/-- A request whose download never answers has its whole time, and so has the one that has waited for
its slot all the while. -/
theorem inBudget_of_rivals :
    let r := serve (.ofConfig oneSlot 0) rivals 20000
    (∃ t ∈ r.tasks, t.grantTime? = some 0 ∧ InBudget oneSlot.budget r t 0) ∧
      ∃ t ∈ r.tasks, t.grantTime? = some 10000 ∧ InBudget oneSlot.budget r t 10000 := by
  intro r
  have hreach := reachable_serve (.ofConfig oneSlot 0) rivals 20000
  have hfirst : r.tasks[0]?.bind Task.grantTime? = some 0 := by decide +kernel
  have hsecond : r.tasks[1]?.bind Task.grantTime? = some 10000 := by decide +kernel
  obtain ⟨t, ht, hgrant⟩ := Option.bind_eq_some_iff.mp hfirst
  obtain ⟨u, hu, hlater⟩ := Option.bind_eq_some_iff.mp hsecond
  have ht := List.mem_of_getElem? ht
  have hu := List.mem_of_getElem? hu
  exact ⟨⟨t, ht, hgrant, inBudget_of_reachable hreach ht hgrant⟩,
    u, hu, hlater, inBudget_of_reachable hreach hu hlater⟩

end Run

end Gateway
