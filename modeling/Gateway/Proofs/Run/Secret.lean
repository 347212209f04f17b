import Mathlib
import Gateway.Proofs.Http.Value
import Gateway.Proofs.Run.Arrival
import Gateway.Proofs.Run.Visit

/-!
# The secret over whole runs

If a secret is configured, nothing is done for a request that does not present it. Apart from questions
about options, such a request is refused on its arrival: it is never in the line, gets no slot, calls
no collaborator and is not counted, however the run goes and whatever else is in the request. What is
seen of it is the same for every secret that it does not present, so that nobody learns more about the
secret than that this one is wrong. Without a secret, or with an empty one, nobody is refused.

All of this is `Run.guarded_of_reachable`. It rests on the place of the check: it comes before everything
that leaves a trace in the shared state, so that a refused request is one of those that are answered
without admission (`Task.Brief`).
-/

namespace Gateway

/-- Whether a request presents a secret: the first of its authorization values is the word for the
scheme, a blank and the secret, byte for byte. -/
def Request.Presents (request : Request) (secret : String) : Prop :=
  Http.Fields.first? "authorization" request.fields =
    some (Utf8.ofString "Bearer " ++ Utf8.ofString secret)

instance (request : Request) (secret : String) : Decidable (request.Presents secret) :=
  inferInstanceAs (Decidable (_ = _))

/-- A configuration with another secret, or with none. -/
def Config.withSecret (c : Config) (secret : Option String) : Config :=
  { c with security := { c.security with secret := secret } }

namespace Access.Secret

/-- The check for a secret admits exactly the requests that present it. -/
lemma admits_ofConfig_some {secret : String} (hne : secret ≠ "") (request : Request) :
    (ofConfig (some secret)).admits request.fields = true ↔ request.Presents secret := by
  have hexpected : (ofConfig (some secret)).expected =
      some (Utf8.ofString "Bearer " ++ Utf8.ofString secret) := by
    rw [← Utf8.ofString_append]
    simp [ofConfig, presentation, hne]
  have hword : Utf8.ofString "Bearer " ≠ [] := by decide +kernel
  simp only [admits, hexpected, presented, Request.Presents, beq_iff_eq]
  rcases Http.Fields.first? "authorization" request.fields with _ | value
  · simp [hword]
  · simp

/-- Without a secret all requests are admitted. -/
lemma admits_ofConfig_of_empty {secret : Option String} (hempty : secret = none ∨ secret = some "")
    (fs : Http.Fields) : (ofConfig secret).admits fs = true := by
  rcases hempty with rfl | rfl <;> rfl

end Access.Secret

namespace Stage

variable {s : Service}

/-- A request that neither asks about options nor passes the check is refused: with one status if it
has another method, with the other if the secret is missing. -/
lemma exists_shortcut_of_refused {request : Request} (hoptions : request.method ≠ .options)
    (hrefused : ¬ (request.method = .get ∧ s.secret.admits request.fields = true)) :
    ∃ f : Failure, (f = .invalidMethod ∨ f = .invalidSecret) ∧
      (request.method = .get → f = .invalidSecret) ∧
      Shortcut s request [.failed f] (.ofFailure f) := by
  by_cases hget : request.method = .get
  · have hadmits : s.secret.admits request.fields = false :=
      Bool.eq_false_of_not_eq_true fun hadmits => hrefused ⟨hget, hadmits⟩
    exact ⟨.invalidSecret, .inr rfl, fun _ => rfl, .secret hget hadmits⟩
  · exact ⟨.invalidMethod, .inl rfl, fun h => absurd h hget, .method hoptions hget⟩

end Stage

namespace Run

/-- What a secret promises about the request at a place, at a point of a run. -/
structure Guarded (secret : String) (r : Run) (i : Nat) (t : Task) : Prop where
  /-- Unless the request asks about options, it is only answered with anything but the two refusals,
  told about the health of the gateway, admitted to the line or to a slot, counted, or served by a
  collaborator if it asks for an image and presents the secret. -/
  opens : t.job.request.method ≠ .options →
    (∃ finish resp, t.outcome? = some (.response finish resp) ∧
        (resp.status ≠ .unprocessable ∧ resp.status ≠ .forbidden ∨
          resp.body = Utf8.ofString "image-gateway is running")) ∨
      (∃ x ∈ t.events, x = .requestCounted ∨ x.isGauge = true ∨ x.isCall = true) ∨
      r.shared.admission.knows i = true →
    t.job.request.method = .get ∧ t.job.request.Presents secret
  /-- If it asks for an image and does not present the secret, it is refused when it arrives. -/
  refuses : t.job.request.method = .get → ¬ t.job.request.Presents secret → t.job.Arrives →
    ∀ horizon, r.StoppedAt horizon → t.job.arrival ≤ horizon →
      ∃ resp, t.outcome? = some (.response t.job.arrival resp) ∧ resp.status = .forbidden ∧
        resp.body = Utf8.ofString "Forbidden"

variable {s : Service} {jobs : List Job} {r : Run} {horizon : Nat}

/-- Who is refused for want of the secret or of the right method has had no part in the run. -/
lemma Sound.guarded (hr : r.Sound s jobs) {secret : String}
    (hadmits : ∀ request : Request,
      s.secret.admits request.fields = true ↔ request.Presents secret)
    {i : Nat} {t : Task} (htask : r.tasks[i]? = some t) : Guarded secret r i t := by
  have ht := List.mem_of_getElem? htask
  refine ⟨fun hoptions hdone => ?_, fun hget hpresents harrives horizon hstopped hle => ?_⟩
  · by_contra hrefused
    rw [← hadmits] at hrefused
    obtain ⟨f, hf, -, hshort⟩ := Stage.exists_shortcut_of_refused hoptions hrefused
    have hbrief := hr.brief ht hshort
    rcases hdone with ⟨finish, resp, houtcome, hresp⟩ | ⟨x, hx, hkind⟩ | hknows
    · -- the only answer is the refusal
      have hreport : resp.status = f.status ∧ resp.body = Utf8.ofString f.publicMessage := by
        generalize t.job = job at hbrief
        cases hbrief with
        | expected | dropped => cases houtcome
        | answered =>
          cases houtcome
          exact ⟨rfl, rfl⟩
      rw [hreport.1, hreport.2] at hresp
      rcases hf with rfl | rfl
      · revert hresp
        decide +kernel
      · revert hresp
        decide +kernel
    · obtain ⟨e, he, rfl⟩ := List.mem_map.mp hx
      obtain ⟨-, entry, hentry⟩ := hbrief.logs e he
      rw [hentry] at hkind
      rcases hkind with hkind | hkind | hkind <;> cases hkind
    · rw [Admission.knows_iff, hr.standing i, htask] at hknows
      refine hknows ?_
      generalize t.job = job at hbrief
      cases hbrief <;> rfl
  · have hrefused : ¬ (t.job.request.method = .get ∧
        s.secret.admits t.job.request.fields = true) := by
      rintro ⟨-, hpass⟩
      exact hpresents ((hadmits _).mp hpass)
    have hoptions : t.job.request.method ≠ .options := by simp [hget]
    obtain ⟨f, -, hf, hshort⟩ := Stage.exists_shortcut_of_refused hoptions hrefused
    obtain rfl := hf hget
    have heq := (hr.brief ht hshort).eq_answered (hstopped.late ht) hle harrives
    rw [heq]
    exact ⟨_, rfl, rfl, rfl⟩

/-- A request that has arrived and needs a slot has been counted. -/
lemma Sound.requestCounted_mem (hr : r.Sound s jobs) {t : Task} (ht : t ∈ r.tasks)
    (hneeds : Stage.NeedsSlot s t.job.request) (harrives : t.job.Arrives)
    (hstopped : r.StoppedAt horizon) (hle : t.job.arrival ≤ horizon) :
    .requestCounted ∈ t.events := by
  obtain ⟨last, -, hcourse⟩ := hr.course t ht
  have hlate := hstopped.late ht
  have harrival := hcourse.arrival
  cases harrival with
  | expected job =>
    obtain ⟨a, ha, htime⟩ :=
      Task.exists_timer?_le (t := .ofJob job) (c := job.arrival) (.inl rfl)
    have hlater := hlate a ha
    simp only [Task.ofJob] at hle
    omega
  | dropped hc hlt =>
    have hge := harrives _ hc
    simp only at hge
    omega
  | @arrived job j shared p rest =>
    have hmem := Stage.requestCounted_mem_arrive hneeds j job.arrival shared
    simp [Task.events, hmem]

/-- With a secret nothing is done for a request that does not present it, and what is seen of such a
request is the same for all secrets. Without a secret, or with an empty one, nobody is refused for it.
-/
theorem guarded_of_reachable (c : Config) (epoch : Nat) :
    (∀ secret, secret ≠ "" → ∀ jobs r,
      Reachable (.ofConfig (c.withSecret (some secret)) epoch) jobs r →
      ∀ i t, r.tasks[i]? = some t → Guarded secret r i t) ∧
    (∀ secret secret', secret ≠ "" → secret' ≠ "" → ∀ jobs jobs' r r' horizon,
      Reachable (.ofConfig (c.withSecret (some secret)) epoch) jobs r → r.StoppedAt horizon →
      Reachable (.ofConfig (c.withSecret (some secret')) epoch) jobs' r' → r'.StoppedAt horizon →
      ∀ t ∈ r.tasks, ∀ t' ∈ r'.tasks, t.job = t'.job → ¬ t.job.request.Presents secret →
        ¬ t.job.request.Presents secret' → t = t') ∧
    (∀ secret, secret = none ∨ secret = some "" →
      (∀ fs, (Service.ofConfig (c.withSecret secret) epoch).secret.check fs = .ok ()) ∧
      ∀ jobs r horizon, Reachable (.ofConfig (c.withSecret secret) epoch) jobs r →
        r.StoppedAt horizon → ∀ t ∈ r.tasks, t.job.request.method = .get → t.job.Arrives →
        t.job.arrival ≤ horizon →
          if t.job.request.target.shown = "/health" then
            ∃ resp, t.outcome? = some (.response t.job.arrival resp) ∧ resp.status = .ok ∧
              resp.body = Utf8.ofString "image-gateway is running"
          else .requestCounted ∈ t.events) := by
  have hadmits {secret : String} (hne : secret ≠ "") (request : Request) :
      (Service.ofConfig (c.withSecret (some secret)) epoch).secret.admits request.fields = true ↔
        request.Presents secret :=
    Access.Secret.admits_ofConfig_some hne request
  refine ⟨fun secret hne jobs r hreach i t htask => ?_,
    fun secret secret' hne hne' jobs jobs' r r' horizon hreach hstopped hreach' hstopped' t ht t' ht'
      hjob hpresents hpresents' => ?_,
    fun secret hempty => ⟨fun fs => ?_, fun jobs r horizon hreach hstopped t ht hget harrives hle => ?_⟩⟩
  · exact hreach.sound.guarded (hadmits hne) htask
  · -- one and the same answer without admission, under both secrets
    have hshort : ∃ entries resp,
        Stage.Shortcut (.ofConfig (c.withSecret (some secret)) epoch) t.job.request entries resp ∧
        Stage.Shortcut (.ofConfig (c.withSecret (some secret')) epoch) t.job.request entries
          resp := by
      rw [← hadmits hne, Bool.not_eq_true] at hpresents
      rw [← hadmits hne', Bool.not_eq_true] at hpresents'
      by_cases hoptions : t.job.request.method = .options
      · exact ⟨_, _, .options hoptions, .options hoptions⟩
      by_cases hget : t.job.request.method = .get
      · exact ⟨_, _, .secret hget hpresents, .secret hget hpresents'⟩
      · exact ⟨_, _, .method hoptions hget, .method hoptions hget⟩
    obtain ⟨entries, resp, hshort, hshort'⟩ := hshort
    have hbrief' := hreach'.sound.brief ht' (hjob ▸ hshort')
    rw [← hjob] at hbrief'
    exact (hreach.sound.brief ht hshort).unique hbrief' rfl (hstopped.late ht)
      (hstopped'.late ht') hstopped.1 hstopped'.1
  · exact Stage.check_eq_ok_iff.mpr (Access.Secret.admits_ofConfig_of_empty hempty fs)
  · have hpass := Access.Secret.admits_ofConfig_of_empty hempty t.job.request.fields
    split
    · next hshown =>
      have hbrief := hreach.sound.brief ht (.health hget hpass hshown)
      rw [hbrief.eq_answered (hstopped.late ht) hle harrives]
      exact ⟨_, rfl, rfl, rfl⟩
    · next hshown =>
      exact hreach.sound.requestCounted_mem ht ⟨hget, Stage.check_eq_ok_iff.mpr hpass, hshown⟩
        harrives hstopped hle

/-- A request for an image with something in its authorization field. -/
def authorizedJob (arrival : Nat) (authorization : String) : Job :=
  let job := imageJob arrival ⟨some 5, .ok [1]⟩
  { job with request :=
    { job.request with fields := [("authorization", Utf8.ofString authorization)] } }

/-- Of two requests the one that presents the secret is served, and the other one is refused as it would
be under another secret. With an empty secret it is counted. -/
theorem guarded_of_wrong_authorization :
    let jobs := [authorizedJob 0 "Bearer lock", authorizedJob 1 "Bearer key"]
    let served (secret : String) :=
      serve (.ofConfig (oneSlot.withSecret (some secret)) 0) jobs 100
    (∃ t, (served "key").tasks[0]? = some t ∧ (served "door").tasks[0]? = some t ∧
      ∃ resp, t.outcome? = some (.response 0 resp) ∧ resp.status = .forbidden) ∧
    (∃ t, (served "key").tasks[1]? = some t ∧ (∃ x ∈ t.events, x.isCall = true) ∧
      t.job.request.Presents "key") ∧
    ∃ t, (served "").tasks[0]? = some t ∧ .requestCounted ∈ t.events := by
  intro jobs served
  have hreach (secret : String) : Reachable (.ofConfig (oneSlot.withSecret (some secret)) 0) jobs
      (served secret) := reachable_serve _ jobs 100
  have hstopped (secret : String) : (served secret).StoppedAt 100 := stoppedAt_serve _ jobs 100
  have htask (secret : String) {i : Nat} (hi : i < 2) :
      ∃ t, (served secret).tasks[i]? = some t ∧ some t.job = jobs[i]? := by
    have hlength := congrArg List.length (hreach secret).sound.jobs
    rw [List.length_map] at hlength
    have ht := List.getElem?_eq_getElem (hi.trans_eq hlength.symm)
    exact ⟨_, ht, ((hreach secret).sound.job ht).symm⟩
  obtain ⟨hguarded, htwo, hempty⟩ := guarded_of_reachable oneSlot 0
  refine ⟨?_, ?_, ?_⟩
  · obtain ⟨t, ht, hjob⟩ := htask "key" (i := 0) (by decide)
    obtain ⟨t', ht', hjob'⟩ := htask "door" (i := 0) (by decide)
    obtain rfl : t = t' := by
      refine htwo "key" "door" (by decide) (by decide) jobs jobs _ _ 100 (hreach _) (hstopped _)
        (hreach _) (hstopped _) t (List.mem_of_getElem? ht) t' (List.mem_of_getElem? ht')
        (Option.some.inj (hjob.trans hjob'.symm)) ?_ ?_
      all_goals
        rw [Option.some.inj hjob]
        decide +kernel
    have hjob := Option.some.inj hjob
    have harrives : t.job.Arrives := by
      rw [hjob]
      intro c hc
      cases hc
    obtain ⟨resp, houtcome, hstatus, -⟩ :=
      (hguarded "key" (by decide) jobs _ (hreach _) 0 t ht).refuses (by rw [hjob]; rfl)
        (by rw [hjob]; decide +kernel) harrives 100 (hstopped _) (by rw [hjob]; decide)
    rw [hjob] at houtcome
    exact ⟨t, ht, ht', resp, houtcome, hstatus⟩
  · obtain ⟨t, ht, hjob⟩ := htask "key" (i := 1) (by decide)
    have hcalls : (served "key").tasks[1]?.map (fun t => t.events.any Event.isCall) =
        some true := by decide +kernel
    rw [ht] at hcalls
    obtain ⟨x, hx, hcall⟩ := List.any_eq_true.mp (Option.some.inj hcalls)
    refine ⟨t, ht, ⟨x, hx, hcall⟩, ?_⟩
    exact ((hguarded "key" (by decide) jobs _ (hreach _) 1 t ht).opens
      (by rw [Option.some.inj hjob]; decide) (.inr (.inl ⟨x, hx, .inr (.inr hcall)⟩))).2
  · obtain ⟨t, ht, hjob⟩ := htask "" (i := 0) (by decide)
    have hjob := Option.some.inj hjob
    have harrives : t.job.Arrives := by
      rw [hjob]
      intro c hc
      cases hc
    have hcounted := (hempty (some "") (.inr rfl)).2 jobs _ 100 (hreach _) (hstopped _) t
      (List.mem_of_getElem? ht) (by rw [hjob]; rfl) harrives (by rw [hjob]; decide)
    rw [if_neg (by rw [hjob]; decide)] at hcounted
    exact ⟨t, ht, hcounted⟩

end Run

end Gateway
