import Mathlib
import Gateway.Download

/-!
# Where a download leads

A download asks for its source and then for what the responses refer to, one after the other. This way is
told by the network alone (`Download.Leads`), and so is what a download reports: it succeeds if some
reference on the way answers with a success whose whole body is there in time (`Download.Delivers`), and it
times out if some reference on the way keeps it waiting until its time is used up (`Download.RunsLate`). In
all other cases it fails as a download. Both are only looked for up to the number of redirects that are
followed, so that redirects in a circle do no harm. How references are read makes no difference to any of
this.

The proof goes along the redirects. A download stays with a response or goes on from it, and in each case
what it reports (`Download.Told`) comes from the reaction at hand and from the report about the rest of the
way. The main result is about whole downloads (`reported_of_client`).
-/

namespace Gateway.Download

/-! ## Reactions -/

namespace Reaction

/-- How long it takes until it is clear what comes of a request: a success must have ended, of any other
response the head is enough. -/
def decided? : Reaction → Option ℕ
  | unreachable => some 0
  | silent => none
  | hangsUp after => some after.nanos
  | answers after status _ _ ending =>
    if status.isSuccess then
      match ending with
      | .whole more | .cutOff more => some (after.nanos + more.nanos)
      | .stalls => none
    else some after.nanos

/-- Whether a reaction is a success with a certain body, all of which is there after some time. -/
def Hands (r : Reaction) (b : Bytes) (time : ℕ) : Prop :=
  ∃ after status location more, r = answers after status location b (.whole more) ∧
    status.isSuccess = true ∧ time = after.nanos + more.nanos

variable {after : Duration} {status : Http.Status} {location : Option Bytes} {body b : Bytes}
variable {ending : BodyEnd} {time : ℕ}

lemma Hands.decided? {r : Reaction} (h : r.Hands b time) : r.decided? = some time := by
  obtain ⟨after, status, location, more, rfl, hsuccess, rfl⟩ := h
  exact if_pos hsuccess

/-- A response without success is decided by its head, -/
lemma decided?_of_fails (hfails : status.isSuccess = false) :
    (answers after status location body ending).decided? = some after.nanos :=
  if_neg (Bool.eq_false_iff.mp hfails)

/-- and it hands out nothing. -/
lemma not_hands_of_fails (hfails : status.isSuccess = false) :
    ¬ (answers after status location body ending).Hands b time := by
  rintro ⟨after', status', location', more, heq, hsuccess, -⟩
  obtain ⟨-, rfl, -⟩ := answers.inj heq
  exact Bool.eq_false_iff.mp hfails hsuccess

end Reaction

/-- A status that asks to look elsewhere reports no success. -/
lemma isSuccess_of_isRedirect {status : Http.Status} (h : isRedirect status = true) :
    status.isSuccess = false := by
  have hcode : status.code ∈ [301, 302, 303, 307, 308] := List.contains_iff_mem.mp h
  simp only [List.mem_cons, List.not_mem_nil, or_false] at hcode
  simp only [Http.Status.isSuccess, Bool.and_eq_false_iff, decide_eq_false_iff_not]
  omega

/-- A response that leads elsewhere reports no success. -/
lemma isSuccess_of_redirect? {urls : Url.Reader} {url next : Url} {status : Http.Status}
    {location : Option Bytes}
    (h : redirect? urls url status location = some next) : status.isSuccess = false := by
  unfold redirect? at h
  split at h
  · next hredirect => exact isSuccess_of_isRedirect hredirect
  · cases h

/-! ## The way of a download -/

/-- Whether the response to a request for a reference leads to another one, some time after it. -/
def Refers (urls : Url.Reader) (network : Network) (url : Url) (after : Duration) (next : Url) : Prop :=
  ∃ status location body ending, network url = .answers after status location body ending ∧
    redirect? urls url status location = some next ∧ isHttp next = true

/-- Whether a number of redirects leads from a reference to another one, and how many nanoseconds they
take. -/
inductive Leads (urls : Url.Reader) (network : Network) : ℕ → ℕ → Url → Url → Prop
  | here (url : Url) : Leads urls network 0 0 url url
  | on {hops time : ℕ} {url next last : Url} {after : Duration}
      (hrefers : Refers urls network url after next) (hrest : Leads urls network hops time next last) :
      Leads urls network (hops + 1) (after.nanos + time) url last

/-- Whether some reference has a property at the instant at which it is asked for, on a way that begins
with a reference at an instant and has no more than a certain number of redirects. -/
def Somewhere (urls : Url.Reader) (network : Network) (left now : ℕ) (url : Url) (p : ℕ → Url → Prop) :
    Prop :=
  ∃ hops ≤ left, ∃ time last, Leads urls network hops time url last ∧ p (now + time) last

/-- Whether no reference is asked for after this one: no redirect may be followed any more, or there is none
to follow. -/
def Stays (urls : Url.Reader) (network : Network) (left : ℕ) (url : Url) : Prop :=
  left = 0 ∨ ∀ after next, ¬ Refers urls network url after next

variable {urls : Url.Reader} {network : Network} {c : Client} {source : String} {budget : Duration}
variable {left now : ℕ} {url next : Url} {after : Duration} {p : ℕ → Url → Prop}

/-- A response leads to a reference if it names it and it is one of those that are fetched. -/
lemma refers_iff {head : Duration} {status : Http.Status} {location : Option Bytes} {body : Bytes}
    {ending : BodyEnd} (hurl : network url = .answers head status location body ending) :
    Refers urls network url after next ↔
      after = head ∧ redirect? urls url status location = some next ∧ isHttp next = true := by
  constructor
  · rintro ⟨status', location', body', ending', hurl', hredirect, hhttp⟩
    obtain ⟨rfl, rfl, rfl, -, -⟩ := Reaction.answers.inj (hurl.symm.trans hurl')
    exact ⟨rfl, hredirect, hhttp⟩
  · rintro ⟨rfl, hredirect, hhttp⟩
    exact ⟨status, location, body, ending, hurl, hredirect, hhttp⟩

/-- A response leads to one reference only, -/
lemma Refers.unique {after' : Duration} {next' : Url} (h : Refers urls network url after next)
    (h' : Refers urls network url after' next') : after = after' ∧ next = next' := by
  obtain ⟨status, location, body, ending, hurl, hredirect, -⟩ := h
  obtain ⟨rfl, hredirect', -⟩ := (refers_iff hurl).mp h'
  exact ⟨rfl, Option.some.inj (hredirect.symm.trans hredirect')⟩

/-- it is decided by its head, -/
lemma Refers.decided? (h : Refers urls network url after next) :
    (network url).decided? = some after.nanos := by
  obtain ⟨status, location, body, ending, hurl, hredirect, -⟩ := h
  rw [hurl]
  exact Reaction.decided?_of_fails (isSuccess_of_redirect? hredirect)

/-- and it hands out nothing. -/
lemma Refers.not_hands (h : Refers urls network url after next) (b : Bytes) (time : ℕ) :
    ¬ (network url).Hands b time := by
  obtain ⟨status, location, body, ending, hurl, hredirect, -⟩ := h
  rw [hurl]
  exact Reaction.not_hands_of_fails (isSuccess_of_redirect? hredirect)

lemma somewhere_of_here (h : p now url) : Somewhere urls network left now url p :=
  ⟨0, Nat.zero_le _, 0, url, .here url, h⟩

/-- If nothing is followed from a reference, it is the whole way. -/
lemma somewhere_iff_of_stays (h : Stays urls network left url) :
    Somewhere urls network left now url p ↔ p now url := by
  refine ⟨?_, somewhere_of_here⟩
  rintro ⟨hops, hhops, time, last, hleads, hp⟩
  cases hleads with
  | here => exact hp
  | on hrefers hrest =>
    rcases h with rfl | hstays
    · exact absurd hhops (Nat.not_succ_le_zero _)
    · exact absurd hrefers (hstays _ _)

/-- Otherwise it is followed by the way of what it leads to. -/
lemma Refers.somewhere_iff (h : Refers urls network url after next) :
    Somewhere urls network (left + 1) now url p ↔
      p now url ∨ Somewhere urls network left (now + after.nanos) next p := by
  constructor
  · rintro ⟨hops, hhops, time, last, hleads, hp⟩
    cases hleads with
    | here => exact .inl hp
    | on hrefers hrest =>
      obtain ⟨rfl, rfl⟩ := h.unique hrefers
      rw [← Nat.add_assoc] at hp
      exact .inr ⟨_, Nat.le_of_succ_le_succ hhops, _, last, hrest, hp⟩
  · rintro (hp | ⟨hops, hhops, time, last, hleads, hp⟩)
    · exact somewhere_of_here hp
    · rw [Nat.add_assoc] at hp
      exact ⟨hops + 1, Nat.succ_le_succ hhops, _, last, .on h hleads, hp⟩

/-! ## Ends of the way -/

/-- Whether a reference that is asked for at an instant hands out a body in time. -/
def Handed (network : Network) (budget : Duration) (b : Bytes) (now : ℕ) (last : Url) : Prop :=
  ∃ time, (network last).Hands b time ∧ now + time < budget.nanos

/-- Whether a reference that is asked for at an instant keeps the download waiting until its time is used
up. That there is no way to a reference is noticed without waiting. -/
def Late (network : Network) (budget : Duration) (now : ℕ) (last : Url) : Prop :=
  (network last).takesTime = true ∧
    ∀ time, (network last).decided? = some time → budget.nanos ≤ now + time

/-- Nothing is handed out in time from where a download has to wait for too long. -/
lemma Late.not_somewhere_handed (h : Late network budget now url) (b : Bytes) :
    ¬ Somewhere urls network left now url (Handed network budget b) := by
  rintro ⟨hops, -, time, last, hleads, more, hhands, hintime⟩
  cases hleads with
  | here =>
    have hlate := h.2 _ hhands.decided?
    omega
  | on hrefers hrest =>
    have hlate := h.2 _ hrefers.decided?
    omega

/-- The request for a reference. -/
def request (c : Client) (url : Url) : Sent := ⟨.get, targetOf url, c.userAgent⟩

/-- What a report tells about the way from a reference that is asked for at an instant, with some redirects
left. -/
structure Told (urls : Url.Reader) (network : Network) (c : Client) (budget : Duration) (left now : ℕ)
    (url : Url) (r : Report) : Prop where
  length_le : r.requests.length ≤ left + 1
  asked : ∀ q ∈ r.requests, Somewhere urls network left now url fun _ last => q = request c last
  ended_le : now ≤ budget.nanos → r.ended ≤ budget.nanos
  ok_iff : ∀ b, r.result = .ok b ↔ Somewhere urls network left now url (Handed network budget b)
  timeout_iff : r.result = .error (.timeout budget) ↔
    Somewhere urls network left now url (Late network budget)
  failure : ∀ f, r.result = .error f → f = .timeout budget ∨ ∃ message, f = .download message

lemma download_ne_timeout (message : String) (d : Duration) :
    Failure.download message ≠ Failure.timeout d := by
  intro h
  cases congrArg Failure.kind h

/-- A download that has to wait for too long times out. -/
lemma Late.told (h : Late network budget now url) {requests : List Sent}
    (hrequests : requests.Sublist [request c url]) :
    Told urls network c budget left now url (giveUp requests budget) where
  length_le := hrequests.length_le.trans (Nat.succ_le_succ (Nat.zero_le _))
  asked q hq := by
    rw [List.mem_singleton.mp (hrequests.subset hq)]
    exact somewhere_of_here rfl
  ended_le _ := le_rfl
  ok_iff b := by
    refine ⟨fun hok => ?_, fun hhanded => absurd hhanded (h.not_somewhere_handed b)⟩
    cases hok
  timeout_iff := ⟨fun _ => somewhere_of_here h, fun _ => rfl⟩
  failure f hf := .inl (Except.error.inj hf).symm

/-- A download that stays with a reaction reports what is decided there, if it is in time. -/
lemma told_settle {time : ℕ} {result : Except Failure Bytes}
    (hstays : Stays urls network left url)
    (htakes : (network url).takesTime = true) (hdecided : (network url).decided? = some time)
    (hok : ∀ b, result = .ok b ↔ (network url).Hands b time)
    (herror : ∀ f, result = .error f → ∃ message, f = .download message) :
    Told urls network c budget left now url (settle [request c url] budget (now + time) result) := by
  unfold settle
  split
  · next hintime =>
    have hlate : ¬ Late network budget now url := by
      intro hlate
      have hwait := hlate.2 _ hdecided
      omega
    refine ⟨Nat.succ_le_succ (Nat.zero_le _), ?_, fun _ => hintime.le, fun b => ?_, ?_, ?_⟩
    · intro q hq
      rw [List.mem_singleton.mp hq]
      exact somewhere_of_here rfl
    · rw [somewhere_iff_of_stays hstays]
      refine (hok b).trans ⟨fun hhands => ⟨time, hhands, hintime⟩, ?_⟩
      rintro ⟨time', hhands, -⟩
      obtain rfl := Option.some.inj (hdecided.symm.trans hhands.decided?)
      exact hhands
    · rw [somewhere_iff_of_stays hstays]
      refine ⟨fun htimeout => ?_, fun h => absurd h hlate⟩
      obtain ⟨message, hmessage⟩ := herror _ htimeout
      exact absurd hmessage.symm (download_ne_timeout message budget)
    · exact fun f hf => .inr (herror f hf)
  · next hlate =>
    refine Late.told ⟨htakes, fun time' htime => ?_⟩ (.refl _)
    obtain rfl := Option.some.inj (hdecided.symm.trans htime)
    exact Nat.le_of_not_lt hlate

/-- A download that goes on in time reports what comes of the rest of its way. -/
lemma Refers.told (h : Refers urls network url after next) (hintime : now + after.nanos < budget.nanos)
    {rest : Report} (hrest : Told urls network c budget left (now + after.nanos) next rest) :
    Told urls network c budget (left + 1) now url
      ⟨request c url :: rest.requests, rest.ended, rest.result⟩ where
  length_le := Nat.succ_le_succ hrest.length_le
  asked q hq := by
    rw [h.somewhere_iff]
    exact (List.mem_cons.mp hq).imp_right (hrest.asked q)
  ended_le _ := hrest.ended_le hintime.le
  ok_iff b := by
    have hhanded : ¬ Handed network budget b now url := by
      rintro ⟨time, hhands, -⟩
      exact h.not_hands b time hhands
    rw [h.somewhere_iff, or_iff_right hhanded]
    exact hrest.ok_iff b
  timeout_iff := by
    have hlate : ¬ Late network budget now url := by
      intro hlate
      have hwait := hlate.2 _ h.decided?
      omega
    rw [h.somewhere_iff, or_iff_right hlate]
    exact hrest.timeout_iff
  failure := hrest.failure

/-- A download that stays with a response without success fails as soon as the head is there. -/
lemma told_of_fails {status : Http.Status} {location : Option Bytes} {body : Bytes} {ending : BodyEnd}
    (hstays : Stays urls network left url)
    (hurl : network url = .answers after status location body ending)
    (hfails : status.isSuccess = false) (message : String) :
    Told urls network c budget left now url
      (settle [request c url] budget (now + after.nanos) (.error (.download message))) := by
  refine told_settle hstays ?_ ?_ (fun b => ?_) fun f hf => ⟨message, (Except.error.inj hf).symm⟩
  · rw [hurl]
    rfl
  · rw [hurl]
    exact Reaction.decided?_of_fails hfails
  · rw [hurl]
    exact iff_of_false (by simp) (Reaction.not_hands_of_fails hfails)

/-- A download that stays with a response reports it: without success as soon as its head is there, and
else once its body has ended. -/
lemma told_settleResponse {status : Http.Status} {location : Option Bytes} {body : Bytes}
    {ending : BodyEnd} (hstays : Stays urls network left url)
    (hurl : network url = .answers after status location body ending) :
    Told urls network c budget left now url (settleResponse (request c url) source budget
      (now + after.nanos) status body ending) := by
  unfold settleResponse
  rcases Bool.eq_false_or_eq_true status.isSuccess with hsuccess | hfails
  swap
  · rw [hfails]
    exact told_of_fails hstays hurl hfails _
  rw [hsuccess, Bool.not_true, if_neg Bool.false_ne_true]
  have htakes : (network url).takesTime = true := by
    rw [hurl]
    rfl
  cases ending with
  | whole more =>
    have hdecided : (network url).decided? = some (after.nanos + more.nanos) := by
      rw [hurl]
      exact if_pos hsuccess
    have hok (b : Bytes) :
        (.ok body : Except Failure Bytes) = .ok b ↔
          (network url).Hands b (after.nanos + more.nanos) := by
      constructor
      · rintro ⟨⟩
        exact ⟨after, status, location, more, hurl, hsuccess, rfl⟩
      · rintro ⟨after', status', location', more', hurl', -, -⟩
        obtain ⟨-, -, -, rfl, -⟩ := Reaction.answers.inj (hurl.symm.trans hurl')
        rfl
    dsimp only
    rw [Nat.add_assoc]
    exact told_settle hstays htakes hdecided hok fun f hf => by cases hf
  | cutOff more =>
    have hdecided : (network url).decided? = some (after.nanos + more.nanos) := by
      rw [hurl]
      exact if_pos hsuccess
    have hnothing (b : Bytes) : ¬ (network url).Hands b (after.nanos + more.nanos) := by
      rintro ⟨after', status', location', more', hurl', -, -⟩
      obtain ⟨-, -, -, -, hending⟩ := Reaction.answers.inj (hurl.symm.trans hurl')
      cases hending
    dsimp only
    rw [Nat.add_assoc]
    refine told_settle hstays htakes hdecided (fun b => ?_)
      fun f hf => ⟨_, (Except.error.inj hf).symm⟩
    exact iff_of_false (by simp) (hnothing b)
  | stalls =>
    refine Late.told ⟨htakes, fun time htime => ?_⟩ (.refl _)
    rw [hurl, Reaction.decided?, if_pos hsuccess] at htime
    cases htime

/-! ## Downloads -/

/-- A download that finds no way to a reference fails at once. -/
lemma told_of_unreachable (hurl : network url = .unreachable) (message : String) :
    Told urls network c budget left now url ⟨[], now, .error (.download message)⟩ := by
  have hstays : Stays urls network left url := by
    right
    rintro after next ⟨status, location, body, ending, hurl', -⟩
    cases hurl.symm.trans hurl'
  refine ⟨Nat.zero_le _, fun q hq => absurd hq List.not_mem_nil, id, fun b => ?_, ?_, ?_⟩
  · rw [somewhere_iff_of_stays hstays]
    refine iff_of_false (by simp) ?_
    rintro ⟨time, ⟨after, status, location, more, hurl', -⟩, -⟩
    cases hurl.symm.trans hurl'
  · rw [somewhere_iff_of_stays hstays]
    refine iff_of_false (fun h => download_ne_timeout _ _ (Except.error.inj h)) ?_
    rintro ⟨htakes, -⟩
    rw [hurl] at htakes
    cases htakes
  · exact fun f hf => .inr ⟨message, (Except.error.inj hf).symm⟩

/-- A download that loses the connection before any response fails then. -/
lemma told_of_hangsUp (hurl : network url = .hangsUp after) (message : String) :
    Told urls network c budget left now url
      (settle [request c url] budget (now + after.nanos) (.error (.download message))) := by
  refine told_settle (.inr ?_) ?_ ?_ (fun b => iff_of_false (by simp) ?_)
    fun f hf => ⟨message, (Except.error.inj hf).symm⟩
  · rintro after' next ⟨status, location, body, ending, hurl', -⟩
    cases hurl.symm.trans hurl'
  · rw [hurl]
    rfl
  · rw [hurl]
    rfl
  · rintro ⟨after', status, location, more, hurl', -⟩
    cases hurl.symm.trans hurl'

/-- Following redirects reports what the way tells. -/
lemma told_follow (urls : Url.Reader) (network : Network) (c : Client) (source : String)
    (budget : Duration) (left now : ℕ) (url : Url) :
    Told urls network c budget left now url (follow urls network c source budget left now url) := by
  fun_induction follow urls network c source budget left now url with
  | case1 left now url hurl => exact told_of_unreachable hurl _
  | case2 left now url sent hurl =>
    refine Late.told ⟨by rw [hurl]; rfl, fun time htime => ?_⟩ (.refl _)
    rw [hurl] at htime
    cases htime
  | case3 left now url sent after hurl => exact told_of_hangsUp hurl _
  | case4 left now url sent after status location body ending hurl now' hredirect =>
    have hstays : ∀ after next, ¬ Refers urls network url after next := by
      intro after next hrefers
      obtain ⟨-, hnext, -⟩ := (refers_iff hurl).mp hrefers
      cases hredirect.symm.trans hnext
    exact told_settleResponse (.inr hstays) hurl
  | case5 now url sent after status location body ending hurl now' next hredirect =>
    exact told_of_fails (.inl rfl) hurl (isSuccess_of_redirect? hredirect) _
  | case6 now url sent after status location body ending hurl now' next hredirect left hhttp =>
    -- What is not fetched is not asked for, so that the way ends with the response that names it.
    have hstays : ∀ after next, ¬ Refers urls network url after next := by
      intro after next' hrefers
      obtain ⟨-, hnext, hhttp'⟩ := (refers_iff hurl).mp hrefers
      obtain rfl := Option.some.inj (hredirect.symm.trans hnext)
      simp [hhttp'] at hhttp
    exact told_of_fails (.inr hstays) hurl (isSuccess_of_redirect? hredirect) _
  | case7 now url sent after status location body ending hurl now' next hredirect left hhttp hintime
      rest ih =>
    have hrefers : Refers urls network url after next :=
      (refers_iff hurl).mpr ⟨rfl, hredirect, by simpa using hhttp⟩
    exact hrefers.told hintime ih
  | case8 now url sent after status location body ending hurl now' next hredirect left hhttp hlate =>
    -- The time is used up with the head of the redirect, which the rest of the way cannot change.
    have hrefers : Refers urls network url after next :=
      (refers_iff hurl).mpr ⟨rfl, hredirect, by simpa using hhttp⟩
    refine Late.told ⟨by rw [hurl]; rfl, fun time htime => ?_⟩ (.refl _)
    obtain rfl := Option.some.inj (hrefers.decided?.symm.trans htime)
    exact Nat.le_of_not_lt hlate

/-- Whether on a way of at most ten redirects from a source some reference has a property at the instant at
which it is asked for. -/
def OnTheWay (urls : Url.Reader) (network : Network) (source : String) (p : ℕ → Url → Prop) : Prop :=
  ∃ url, urls.parse source.toList = .ok url ∧ isFetchable url = true ∧ Somewhere urls network 10 0 url p

/-- Whether a source leads to a success whose whole body is there in time. -/
def Delivers (urls : Url.Reader) (network : Network) (source : String) (budget : Duration) (b : Bytes) :
    Prop :=
  OnTheWay urls network source (Handed network budget b)

/-- Whether the time allowed is used up before it is clear where a source leads. -/
def RunsLate (urls : Url.Reader) (network : Network) (source : String) (budget : Duration) : Prop :=
  OnTheWay urls network source (Late network budget)

lemma onTheWay_iff (hparse : urls.parse source.toList = .ok url) (hfetchable : isFetchable url = true) :
    OnTheWay urls network source p ↔ Somewhere urls network 10 0 url p := by
  constructor
  · rintro ⟨url', hparse', -, hsomewhere⟩
    obtain rfl := Except.ok.inj (hparse.symm.trans hparse')
    exact hsomewhere
  · intro hsomewhere
    exact ⟨url, hparse, hfetchable, hsomewhere⟩

/-- A source that can be fetched is reported as its way tells, also if there is no time for it. -/
lemma told_fetch (network : Network) (c : Client) (budget : Duration)
    (hparse : urls.parse source.toList = .ok url) (hfetchable : isFetchable url = true) :
    Told urls network c budget 10 0 url (fetch network c source budget urls) := by
  have hnot : ¬ (!isFetchable url) = true := by simp [hfetchable]
  simp only [fetch, hparse, if_neg hnot]
  split
  · next hnone =>
    refine Late.told ⟨hnone.2, fun time _ => ?_⟩ (List.nil_sublist _)
    rw [hnone.1]
    exact Nat.zero_le _
  · exact told_follow urls network c source budget 10 0 url

/-- What a report says about a download of a source under a configured name, with some time for it and a
reader of references. -/
structure Reported (urls : Url.Reader) (network : Network) (name source : String) (budget : Duration)
    (r : Report) : Prop where
  /-- There are at most eleven requests. -/
  length_le : r.requests.length ≤ 11
  /-- All of them are plain ones under the configured name, for references on the way of the source. -/
  requests : ∀ q ∈ r.requests, q.method = .get ∧ q.userAgent = Utf8.ofString name ∧
    OnTheWay urls network source fun _ last => q.target = targetOf last
  /-- The download ends within the time allowed. -/
  ended_le : r.ended ≤ budget.nanos
  /-- It succeeds with a body exactly if the source leads to it in time, -/
  ok_iff : ∀ b, r.result = .ok b ↔ Delivers urls network source budget b
  /-- it times out exactly if its time is used up before that is clear, -/
  timeout_iff : (∃ f, r.result = .error f ∧ f.kind = .timeout) ↔ RunsLate urls network source budget
  /-- and in all other cases it fails as a download. -/
  failure : ∀ f, r.result = .error f →
    (f.kind = .timeout ∧ f.status.code = 503 ∧ f.publicMessage = "Timeout") ∨
      (f.kind = .download ∧ f.status.code = 404 ∧ f.publicMessage = "Image is unreachable")

/-- A report that tells about the way of a source says what it should. -/
lemma Told.reported {name : String} {r : Report} (h : Told urls network c budget 10 0 url r)
    (hname : c.userAgent = Utf8.ofString name) (hparse : urls.parse source.toList = .ok url)
    (hfetchable : isFetchable url = true) : Reported urls network name source budget r where
  length_le := h.length_le
  requests q hq := by
    obtain ⟨hops, hhops, time, last, hleads, rfl⟩ := h.asked q hq
    exact ⟨rfl, hname, url, hparse, hfetchable, hops, hhops, time, last, hleads, rfl⟩
  ended_le := h.ended_le (Nat.zero_le _)
  ok_iff b := (h.ok_iff b).trans (onTheWay_iff hparse hfetchable).symm
  timeout_iff := by
    rw [RunsLate, onTheWay_iff hparse hfetchable, ← h.timeout_iff]
    constructor
    · rintro ⟨f, hf, hkind⟩
      rcases h.failure f hf with rfl | ⟨message, rfl⟩
      · exact hf
      · cases hkind
    · exact fun hf => ⟨_, hf, rfl⟩
  failure f hf := by
    rcases h.failure f hf with rfl | ⟨message, rfl⟩
    · exact .inl ⟨rfl, rfl, rfl⟩
    · exact .inr ⟨rfl, rfl, rfl⟩

/-- A source that cannot be fetched leads nowhere, and fails without a request. -/
lemma fetch_of_not_fetchable (network : Network) (c : Client) (budget : Duration)
    (h : ¬ ∃ url, urls.parse source.toList = .ok url ∧ isFetchable url = true) :
    ∃ message, fetch network c source budget urls = ⟨[], 0, .error (.download message)⟩ := by
  rcases hparse : urls.parse source.toList with e | url
  · exact ⟨_, by simp only [fetch, hparse]; rfl⟩
  · have hnot : (!isFetchable url) = true := by
      rw [Bool.not_eq_true', Bool.eq_false_iff]
      exact fun hfetchable => h ⟨url, hparse, hfetchable⟩
    exact ⟨_, by simp only [fetch, hparse, if_pos hnot]; rfl⟩

/-- This is what should be said of it. -/
lemma reported_of_not_fetchable (network : Network) (c : Client) (name : String) (budget : Duration)
    (h : ¬ ∃ url, urls.parse source.toList = .ok url ∧ isFetchable url = true) :
    Reported urls network name source budget (fetch network c source budget urls) := by
  have hnowhere {p : ℕ → Url → Prop} : ¬ OnTheWay urls network source p := by
    rintro ⟨url, hparse, hfetchable, -⟩
    exact h ⟨url, hparse, hfetchable⟩
  obtain ⟨message, hfetch⟩ := fetch_of_not_fetchable network c budget h
  rw [hfetch]
  refine ⟨Nat.zero_le _, fun q hq => absurd hq List.not_mem_nil, Nat.zero_le _, fun b => ?_, ?_,
    fun f hf => ?_⟩
  · exact iff_of_false (by simp) hnowhere
  · refine iff_of_false ?_ hnowhere
    rintro ⟨f, hf, hkind⟩
    obtain rfl := Except.error.inj hf
    cases hkind
  · obtain rfl := Except.error.inj hf
    exact .inr ⟨rfl, rfl, rfl⟩

/-- Whatever the origins do and however references are read, a download reports it correctly, and it comes to
an end. -/
theorem reported_of_client {name : String} {c : Client} (hclient : Client.ofName? name = some c)
    (urls : Url.Reader) (network : Network) (source : String) (budget : Duration) :
    Reported urls network name source budget (fetch network c source budget urls) := by
  have hname : c.userAgent = Utf8.ofString name := by
    obtain ⟨-, hc⟩ := Option.ite_none_right_eq_some.mp hclient
    rw [← Option.some.inj hc]
  by_cases h : ∃ url, urls.parse source.toList = .ok url ∧ isFetchable url = true
  · obtain ⟨url, hparse, hfetchable⟩ := h
    exact (told_fetch network c budget hparse hfetchable).reported hname hparse hfetchable
  · exact reported_of_not_fetchable network c name budget h

/-- An origin with a picture at one place, a redirect to it at a second one, and a third one that leads back
to itself. -/
def roundabout : Network := fun url =>
  if url.path = .segments ["picture".toList] then
    .answers ⟨4⟩ .ok none (Utf8.ofString "pixels") (.whole ⟨5⟩)
  else if url.path = .segments ["moved".toList] then
    .answers ⟨3⟩ { code := 302 } (some (Utf8.ofString "/picture")) [] (.whole ⟨0⟩)
  else .answers ⟨1⟩ { code := 302 } (some (Utf8.ofString "circle")) [] (.whole ⟨0⟩)

/-- The redirect gets to the picture in thirteen nanoseconds, but not in twelve, and going in a circle is
given up after eleven requests. -/
theorem reported_of_roundabout :
    let c : Client := ⟨Utf8.ofString "gateway"⟩
    Client.ofName? "gateway" = some c ∧
      Reported Url.reader roundabout "gateway" "http://origin/moved" ⟨13⟩
        (fetch roundabout c "http://origin/moved" ⟨13⟩) ∧
      Delivers Url.reader roundabout "http://origin/moved" ⟨13⟩ (Utf8.ofString "pixels") ∧
      RunsLate Url.reader roundabout "http://origin/moved" ⟨12⟩ ∧
      (fetch roundabout c "http://origin/circle" ⟨13⟩).requests.length = 11 := by
  have hclient : Client.ofName? "gateway" = some ⟨Utf8.ofString "gateway"⟩ := by
    unfold Client.ofName?
    exact if_pos (by decide +kernel)
  have hreported (source : String) (budget : Duration) :=
    reported_of_client hclient Url.reader roundabout source budget
  refine ⟨hclient, hreported _ _, ?_, ?_, by decide +kernel⟩
  · exact ((hreported _ _).ok_iff _).mp (by decide +kernel)
  · exact (hreported _ _).timeout_iff.mp ⟨.timeout ⟨12⟩, by decide +kernel, rfl⟩

end Gateway.Download
