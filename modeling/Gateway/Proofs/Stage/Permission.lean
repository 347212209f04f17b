import Mathlib
import Gateway.Proofs.Access.CrossOrigin
import Gateway.Proofs.Encoder.Body
import Gateway.Proofs.Stage.Move

/-!
# The permission in the stages

No stage looks at the permission for other origins. It is put into a response where a request is
answered, and all ways of answering go through that one place (`Stage.answered`). So a turn is the same
under every permission except for the permission itself in the response, and before that is put in, no
response has a part of it: `Turn.Bears` says both at once, with one turn for all permissions. The lemmas
follow the stages from the end (`Stage.bears_leave`) to the beginning (`Stage.bears_arrive`), and
`Stage.bears_fire` and `Stage.bears_cancel` sum them up.
-/

namespace Gateway

open Access (CrossOrigin)

/-! ## Putting in a permission -/

/-- A gateway with another permission. -/
def Service.withPermission (s : Service) (c : CrossOrigin) : Service := { s with crossOrigin := c }

/-- An ending with a permission put into its response. -/
def Outcome.permit (c : CrossOrigin) : Outcome → Outcome
  | .response finish r => .response finish { r with fields := c.apply r.fields }
  | o => o

/-- A place to stop with a permission put into its response, if there is one. -/
def Phase.permit (c : CrossOrigin) : Phase → Phase
  | .ended o => .ended (o.permit c)
  | p => p

/-- A turn with a permission put into its response, if there is one. -/
def Turn.permit (c : CrossOrigin) (t : Turn) : Turn := { t with phase := t.phase.permit c }

/-- Whether a place to stop has no response with a part of a permission. -/
def Phase.Free (p : Phase) : Prop :=
  ∀ finish r, p = .ended (.response finish r) → CrossOrigin.Free r.fields

/-- A turn that depends on the permission is the same for all permissions, up to the permission that is
put into its response. -/
def Turn.Bears (turn : CrossOrigin → Turn) : Prop :=
  ∃ b : Turn, b.phase.Free ∧ ∀ c, turn c = b.permit c

/-- A turn that starts with some events bears the permission like the rest of it. -/
lemma Turn.Bears.after {turn : CrossOrigin → Turn} (h : Bears turn) (es : List Event) :
    Bears fun c => Turn.after es (turn c) := by
  obtain ⟨b, hfree, hturn⟩ := h
  refine ⟨Turn.after es b, hfree, ?_⟩
  intro c
  exact congrArg (Turn.after es) (hturn c)

/-- A turn that ends in no response does not depend on the permission. -/
lemma Turn.bears_of_unanswered {t : Turn} (h : ∀ finish r, t.phase ≠ .ended (.response finish r)) :
    Bears fun _ => t := by
  refine ⟨t, fun finish r heq => absurd heq (h finish r), ?_⟩
  intro c
  obtain ⟨shared, events, phase⟩ := t
  cases phase with
  | expected | queued | downloading | processing => rfl
  | ended o =>
    cases o with
    | response finish r => exact absurd rfl (h finish r)
    | cancelled | panicked => rfl

/-! ## Responses before the permission -/

namespace Access.CrossOrigin

lemma free_plain (status : Http.Status) (text : String) :
    Free (Http.Response.plain status text).fields := by
  simp [Free, Http.Response.plain, fieldNames]

lemma free_ofFailure (f : Failure) : Free (Http.Response.ofFailure f).fields :=
  free_plain _ _

lemma free_bare (status : Http.Status) : Free (Http.Response.bare status).fields := by
  simp [Free, Http.Response.bare]

lemma free_notModified (tag : List Char) : Free (Encoder.notModified tag).fields := by
  unfold Encoder.notModified
  split
  · simp [Free, fieldNames]
  · exact free_bare _

/-- A response with an image has no part of a permission. -/
lemma free_image {e : Encoder} {pool : BufferPool} {now : Nat} {request : Http.Fields}
    {t : Image.Transform} {source : String} {tag : Option (List Char)} {data : Bytes}
    {gzip : Nat → Bytes → Bytes} {r : Http.Response}
    (h : (e.image pool now request t source tag data gzip).1 = .ok r) : Free r.fields := by
  have hencoding : Free (e.encodeBody pool request data gzip).1.1 := by
    unfold Encoder.encodeBody
    split <;> simp [Free, Encoder.encodingField, fieldNames]
  obtain ⟨expires, disposition, rfl⟩ := Encoder.eq_of_image h
  intro f hf
  simp only [List.mem_append] at hf
  rcases hf with ((hf | hf) | hf) | hf
  · revert f
    simp [fieldNames]
  · obtain ⟨s, -, rfl⟩ := List.mem_map.mp hf
    simp [fieldNames]
  · exact hencoding f hf
  · obtain rfl := List.mem_singleton.mp hf
    simp [fieldNames]

end Access.CrossOrigin

namespace Stage

variable {s : Service} {job : Job} {i now : Nat} {shared : Shared} {v : Visit}

open Access.CrossOrigin

/-! ## From the end to the beginning -/

/-- A request that leaves with a failure is answered without a part of a permission. -/
lemma bears_leave_error (f : Failure) (hasImage : Bool) :
    Turn.Bears fun c => leave (s.withPermission c) i now hasImage shared (.error f) := by
  refine ⟨⟨departed shared i, departureEvents shared hasImage ++ [.log (.failed f)],
    .ended (.response now (.ofFailure f))⟩, ?_, fun _ => rfl⟩
  intro finish r heq
  cases heq
  exact free_ofFailure f

/-- A request that leaves is answered without a part of a permission if its response has none. -/
lemma bears_leave {result : Except Failure (Http.Response × LogEntry)}
    (hfree : ∀ r entry, result = .ok (r, entry) → Free r.fields) (hasImage : Bool) :
    Turn.Bears fun c => leave (s.withPermission c) i now hasImage shared result := by
  rcases result with f | ⟨r, entry⟩
  · exact bears_leave_error f hasImage
  · refine ⟨⟨departed shared i, .log entry :: departureEvents shared hasImage,
      .ended (.response now r)⟩, ?_, fun _ => rfl⟩
    intro finish r' heq
    cases heq
    exact hfree r entry rfl

/-- A stage goes on after the deadline has been looked at, or the request leaves. -/
lemma bears_check {turn : CrossOrigin → Turn} (h : Turn.Bears turn) (hasImage : Bool) :
    Turn.Bears fun c => match v.deadline.check (instantOf now) with
      | .error f => leave (s.withPermission c) i now hasImage shared (.error f)
      | .ok () => turn c := by
  rcases v.deadline.check (instantOf now) with f | ⟨⟩
  · exact bears_leave_error f hasImage
  · exact h

lemma bears_encode (tag : Option (List Char)) (data : Bytes) :
    Turn.Bears fun c => encode (s.withPermission c) job i now shared v tag data := by
  have hleave (c : CrossOrigin) : encode (s.withPermission c) job i now shared v tag data =
      leave (s.withPermission c) i now true
        { shared with pool := (s.encoder.image shared.pool (s.dateAt now) job.request.fields
          v.parsed.transform v.parsed.sourceUrl tag data s.gzip).2 }
        ((s.encoder.image shared.pool (s.dateAt now) job.request.fields v.parsed.transform
          v.parsed.sourceUrl tag data s.gzip).1.map
            fun r => (r, .responded .ok (servedMessage v now))) :=
    rfl
  simp only [hleave]
  refine bears_leave ?_ true
  intro r entry hok
  rcases himage : (s.encoder.image shared.pool (s.dateAt now) job.request.fields v.parsed.transform
    v.parsed.sourceUrl tag data s.gzip).1 with f | r'
  · rw [himage] at hok
    cases hok
  · rw [himage] at hok
    cases hok
    exact free_image himage

lemma bears_afterProcess (tag : Option (List Char)) (result : Except Failure Bytes) :
    Turn.Bears fun c => afterProcess (s.withPermission c) job i now shared v tag result := by
  rcases result with f | data
  · exact (bears_leave_error f true).after _
  · exact (bears_check (bears_encode tag data) true).after _

/-- A call that ends at once is followed by the next stage, and one that takes time ends the turn. -/
lemma bears_call {turn : CrossOrigin → Turn} (h : Turn.Bears turn) {tick : Nat} {p : Phase}
    (hp : ∀ finish r, p ≠ .ended (.response finish r)) (x : Event) :
    Turn.Bears fun c => Turn.after [x] (if tick = now then turn c else ⟨shared, [], p⟩) := by
  refine Turn.Bears.after ?_ [x]
  by_cases htick : tick = now
  · simpa only [if_pos htick] using h
  · simpa only [if_neg htick] using Turn.bears_of_unanswered hp

lemma bears_startProcess (source : Bytes) (tag : Option (List Char)) :
    Turn.Bears fun c => startProcess (s.withPermission c) job i now shared v source tag :=
  bears_check (bears_call (bears_afterProcess tag _) (by simp) _) true

lemma bears_compare (source : Bytes) :
    Turn.Bears fun c => compare (s.withPermission c) job i now shared v source := by
  have hetags (c : CrossOrigin) : (s.withPermission c).etags = s.etags := rfl
  simp only [compare, hetags]
  generalize Validator.calculate source v.parsed.transform = tag
  split
  · split
    · refine bears_leave ?_ true
      intro r entry heq
      cases heq
      exact free_notModified tag
    · exact bears_startProcess source (some tag)
  · exact bears_startProcess source none

lemma bears_afterDownload (result : Except Failure Bytes) :
    Turn.Bears fun c => afterDownload (s.withPermission c) job i now shared v result := by
  rcases result with f | source
  · exact (bears_leave_error f false).after _
  · exact (bears_check (bears_compare source) true).after _

lemma bears_startDownload :
    Turn.Bears fun c => startDownload (s.withPermission c) job i now shared v :=
  bears_check (bears_call (bears_afterDownload _) (by simp) _) false

/-- A request that enters with a slot. -/
lemma bears_admitted : Turn.Bears fun c => admitted (s.withPermission c) job i now shared := by
  have htimeout (c : CrossOrigin) : (s.withPermission c).writeTimeout = s.writeTimeout := rfl
  unfold admitted
  simp only [htimeout]
  refine Turn.Bears.after ?_ _
  split
  · exact Turn.bears_of_unanswered (by simp)
  · refine Turn.Bears.after ?_ _
    split
    · exact bears_leave_error _ false
    · exact bears_startDownload

/-- A request that is answered without admission. -/
lemma bears_answerAtOnce {r : Http.Response} (hfree : Free r.fields) (es : List Event) :
    Turn.Bears fun c => answerAtOnce (s.withPermission c) now shared es r := by
  refine ⟨⟨shared, es, .ended (.response now r)⟩, ?_, fun _ => rfl⟩
  intro finish r' heq
  cases heq
  exact hfree

/-! ## Turns -/

lemma bears_arrive : Turn.Bears fun c => arrive (s.withPermission c) job i now shared := by
  have hsecret (c : CrossOrigin) : (s.withPermission c).secret = s.secret := rfl
  unfold arrive
  simp only [hsecret]
  refine Turn.Bears.after ?_ _
  split
  · exact bears_answerAtOnce (free_bare _) _
  · split
    · exact bears_answerAtOnce (free_ofFailure _) _
    · split
      · exact bears_answerAtOnce (free_ofFailure _) _
      · split
        · exact bears_answerAtOnce (free_plain _ _) _
        · refine Turn.Bears.after ?_ _
          split
          · exact bears_admitted
          · exact Turn.bears_of_unanswered (by simp)

lemma bears_resume : Turn.Bears fun c => resume (s.withPermission c) job i now shared :=
  bears_admitted

/-- A timer has the same effect under every permission. -/
lemma bears_fire {p : Phase} (hfree : p.Free) :
    Turn.Bears fun c => fire (s.withPermission c) job i now shared (p.permit c) := by
  cases p with
  | expected => exact bears_arrive
  | queued => exact Turn.bears_of_unanswered (by simp)
  | downloading v tick result => exact bears_afterDownload result
  | processing v source tag tick result => exact bears_afterProcess tag result
  | ended o => exact ⟨⟨shared, [], .ended o⟩, hfree, fun _ => rfl⟩

/-- A cancellation has the same effect under every permission. -/
lemma bears_cancel {p : Phase} (hfree : p.Free) :
    Turn.Bears fun c => cancel i shared (p.permit c) := by
  cases p with
  | expected =>
    exact Turn.bears_of_unanswered (t := ⟨shared, [], .ended .cancelled⟩) (by simp)
  | queued =>
    exact Turn.bears_of_unanswered
      (t := ⟨departed shared i, [.durationRecorded], .ended .cancelled⟩) (by simp)
  | downloading v tick result =>
    exact Turn.bears_of_unanswered
      (t := ⟨departed shared i, departureEvents shared false, .ended .cancelled⟩) (by simp)
  | processing v source tag tick result =>
    exact Turn.bears_of_unanswered
      (t := ⟨departed shared i, departureEvents shared true, .ended .cancelled⟩) (by simp)
  | ended o => exact ⟨⟨shared, [], .ended o⟩, hfree, fun _ => rfl⟩

end Stage

end Gateway
