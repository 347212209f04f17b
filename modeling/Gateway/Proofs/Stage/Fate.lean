import Mathlib
import Gateway.Proofs.Stage.Work

/-!
# The fate of an admitted request

From its admission on, what becomes of a request is determined by its collaborators and by the time
that it has. `Fate.ofAdmitted` says this in one piece, as if no time passed between two calls and nobody
else were there: the path is read; then come the download and the processing, each of which is over when
it answers or when the time is up (`Call.settled`); a value that arrives in the last millisecond is too
late, but a failure that does so is still told.

The stages do the same in several turns. `Stage.Plays` says that a turn plays out the beginning of a
fate: either the request leaves as its fate says, or it stops where the rest of its fate awaits it
(`Stage.Awaits`). Every stage plays out the fate of its name, from `Stage.plays_afterProcess` back to
`Stage.plays_admitted`.
-/

namespace Gateway

/-- What becomes of an admitted request: when it leaves, what is seen of it until then, whether its
image is there when it leaves, and with which result it does. -/
structure Fate where
  finish : Nat
  seen : List (Nat × Event)
  hasImage : Bool
  result : Except Failure (Http.Response × LogEntry)

/-- When a call that is made at a millisecond is over and what comes of it, if it is given up at another
one with a failure. -/
def Call.settled (c : Call Bytes) (start limit : Nat) (late : Failure) :
    Nat × Except Failure Bytes :=
  match c.delay with
  | some delay =>
    if start + delay ≤ limit then (start + delay, c.answer.mapError Fault.classify)
    else (limit, .error late)
  | none => (limit, .error late)

lemma Call.settled_le (c : Call Bytes) {start limit : Nat} (late : Failure) :
    (c.settled start limit late).1 ≤ limit := by
  unfold settled
  split
  · split
    · assumption
    · exact le_rfl
  · exact le_rfl

lemma Call.le_settled (c : Call Bytes) {start limit : Nat} (hle : start ≤ limit) (late : Failure) :
    start ≤ (c.settled start limit late).1 := by
  unfold settled
  split
  · split
    · exact Nat.le_add_right _ _
    · exact hle
  · exact hle

/-- A call under a deadline that is open comes out as the limit of the deadline says. -/
lemma Deadline.run_eq_settled (c : Call Bytes) {start limit now : Nat} (hnow : now < limit) :
    (between start limit).run (instantOf now) c =
      (instantOf (c.settled now limit (.timeout (.ofMillis (limit - start)))).1,
        (c.settled now limit (.timeout (.ofMillis (limit - start)))).2) := by
  unfold Call.settled
  split
  · next delay hdelay =>
    split
    · next hdue => exact run_of_due hdelay hdue
    · next hlate =>
      refine run_of_late hnow fun other hother => ?_
      obtain rfl := Option.some.inj (hdelay.symm.trans hother)
      exact Nat.lt_of_not_le hlate
  · next hdelay => exact run_of_late hnow fun other hother => by simp [hdelay] at hother

namespace Fate

/-- The fate of a request that leaves at once. -/
def leaves (finish : Nat) (hasImage : Bool) (result : Except Failure (Http.Response × LogEntry)) :
    Fate :=
  ⟨finish, [], hasImage, result⟩

/-- A fate that starts with something seen. -/
def after (seen : List (Nat × Event)) (f : Fate) : Fate := { f with seen := seen ++ f.seen }

@[simp] lemma after_finish (seen : List (Nat × Event)) (f : Fate) :
    (f.after seen).finish = f.finish :=
  rfl

@[simp] lemma after_seen (seen : List (Nat × Event)) (f : Fate) :
    (f.after seen).seen = seen ++ f.seen :=
  rfl

lemma after_nil (f : Fate) : f.after [] = f :=
  rfl

lemma after_after (xs ys : List (Nat × Event)) (f : Fate) :
    (f.after ys).after xs = f.after (xs ++ ys) := by
  simp only [after, List.append_assoc]

/-- The response of the request, before the fields are added that tell browsers who may read it. -/
def response (f : Fate) : Http.Response :=
  match f.result with
  | .ok (r, _) => r
  | .error failure => .ofFailure failure

/-- What is seen when a request gives back what it holds and publishes that `n` slots are in use. -/
def departure (hasImage : Bool) (n : Nat) : List Event :=
  (if hasImage then [.released] else []) ++ [.slotsInUse n, .durationRecorded]

/-- What is seen when the request leaves. -/
def closing (f : Fate) (n : Nat) : List Event :=
  match f.result with
  | .ok (_, entry) => .log entry :: departure f.hasImage n
  | .error failure => departure f.hasImage n ++ [.log (.failed failure)]

/-- The whole visit of a request that is admitted at a millisecond, with the numbers of slots that it
publishes then and when it leaves. -/
def visit (f : Fate) (grant n m : Nat) : List (Nat × Event) :=
  (grant, .slotsInUse n) :: (f.seen ++ (f.closing m).map fun x => (f.finish, x))

lemma events_leaves (f : Fate) (shared : Shared) :
    (Stage.Ending.leaves f.hasImage f.result).events shared =
      f.closing (shared.admission.inUse - 1) := by
  unfold closing
  rcases f.result with failure | ⟨r, entry⟩ <;> rfl

lemma phase_leaves (f : Fate) (s : Service) (now : Nat) :
    (Stage.Ending.leaves f.hasImage f.result).phase s now = Stage.answered s now f.response := by
  unfold response
  rcases f.result with failure | ⟨r, entry⟩ <;> rfl

section

variable (s : Service) (job : Job) (grant limit : Nat) (parsed : Parsed)

/-- The failure of a request whose time is up. -/
def timeout : Failure := .timeout (.ofMillis (limit - grant))

/-- What the encoder makes of an image, and what is logged about it. -/
def encoded (tag : Option (List Char)) (data : Bytes) (done : Nat) :
    Except Failure (Http.Response × LogEntry) :=
  (s.encoder.image Encoder.freshPool (s.dateAt done) job.request.fields parsed.transform
    parsed.sourceUrl tag data s.gzip).1.map fun r =>
      (r, .responded .ok (Stage.servedMessage ⟨.between grant limit, parsed⟩ done))

/-- The fate of a request whose processing is over. -/
def ofProcessed (tag : Option (List Char)) (done : Nat) : Except Failure Bytes → Fate
  | .error f => (leaves done true (.error f)).after [(done, .errorCounted .processing)]
  | .ok data =>
    (if done = limit then leaves done true (.error (timeout grant limit))
      else leaves done true (encoded s job grant limit parsed tag data done)).after
        (if job.collaborators.reportsProcessed then [(done, .processed data.length)] else [])

/-- The fate of a request whose image is to be processed. -/
def ofProcess (source : Bytes) (tag : Option (List Char)) (now : Nat) : Fate :=
  let settled := (job.collaborators.process source).settled now limit (timeout grant limit)
  (ofProcessed s job grant limit parsed tag settled.1 settled.2).after
    [(now, .processCalled source.length (limit - now))]

/-- The fate of a request whose image is there before its time is up. -/
def ofSource (source : Bytes) (now : Nat) : Fate :=
  let tag := Validator.calculate source parsed.transform
  if s.etags then
    if Validator.covers job.request.fields tag then
      leaves now true
        (.ok (Encoder.notModified tag, .responded .notModified Stage.notModifiedMessage))
    else ofProcess s job grant limit parsed source (some tag) now
  else ofProcess s job grant limit parsed source none now

/-- The fate of a request whose download is over. -/
def ofDownloaded (done : Nat) : Except Failure Bytes → Fate
  | .error f => (leaves done false (.error f)).after [(done, .errorCounted .download)]
  | .ok source =>
    (if done = limit then leaves done true (.error (timeout grant limit))
      else ofSource s job grant limit parsed source done).after [(done, .downloaded source.length)]

/-- The fate of a request whose path has been read. -/
def ofParsed : Fate :=
  if grant = limit then leaves grant false (.error (timeout grant limit))
  else
    let settled := job.collaborators.download.settled grant limit (timeout grant limit)
    (ofDownloaded s job grant limit parsed settled.1 settled.2).after
      [(grant, .downloadCalled parsed.sourceUrl (limit - grant))]

/-- The fate of a request that is admitted at a millisecond and whose time is up at another one. -/
def ofAdmitted : Fate :=
  (match job.collaborators.parse job.request.target with
  | .error fault => leaves grant false (.error fault.classify)
  | .ok parsed => ofParsed s job grant limit parsed).after [(grant, .parseCalled)]

end

section

variable {s : Service} {job : Job} {grant limit : Nat} {parsed : Parsed}

lemma ofProcessed_finish (tag : Option (List Char)) (done : Nat) (result : Except Failure Bytes) :
    (ofProcessed s job grant limit parsed tag done result).finish = done := by
  rcases result with f | data
  · rfl
  · rw [ofProcessed, after_finish]
    split <;> rfl

/-- A request does not leave before its download is over. -/
lemma le_ofDownloaded_finish {done : Nat} (hle : done ≤ limit) (result : Except Failure Bytes) :
    done ≤ (ofDownloaded s job grant limit parsed done result).finish := by
  rcases result with f | source
  · exact le_rfl
  · have hprocess (tag : Option (List Char)) :
        done ≤ (ofProcess s job grant limit parsed source tag done).finish := by
      rw [ofProcess, after_finish, ofProcessed_finish]
      exact Call.le_settled _ hle _
    rw [ofDownloaded, after_finish]
    split
    · exact le_rfl
    · unfold ofSource
      simp only
      split
      · split
        · exact le_rfl
        · exact hprocess _
      · exact hprocess _

end

end Fate

namespace Stage

variable {s : Service} {job : Job} {grant limit now : Nat}

/-! ## Turns that play out a fate -/

/-- The fate that awaits a request where it stops for a collaborator. -/
inductive Awaits (s : Service) (job : Job) (grant limit : Nat) : Phase → Fate → Prop
  | download {v : Visit} {tick : Nat} (result : Except Failure Bytes)
      (hv : v.deadline = .between grant limit) (hle : tick ≤ limit) :
      Awaits s job grant limit (.downloading v tick result)
        (.ofDownloaded s job grant limit v.parsed tick result)
  | process {v : Visit} {tick : Nat} (source : Bytes) (tag : Option (List Char))
      (result : Except Failure Bytes) (hv : v.deadline = .between grant limit) (hle : tick ≤ limit) :
      Awaits s job grant limit (.processing v source tag tick result)
        (.ofProcessed s job grant limit v.parsed tag tick result)

/-- Some work and an ending are the beginning of a fate. -/
inductive Begins (s : Service) (job : Job) (grant limit now : Nat) :
    List Event → Ending → Fate → Prop
  | leaves (w : List Event) (img : Bool) (result : Except Failure (Http.Response × LogEntry)) :
      Begins s job grant limit now w (.leaves img result)
        ⟨now, w.map fun x => (now, x), img, result⟩
  | waits (w : List Event) {p : Phase} {rest : Fate} (hrest : Awaits s job grant limit p rest) :
      Begins s job grant limit now w (.waits p) (rest.after (w.map fun x => (now, x)))

/-- A turn plays out the beginning of a fate, whoever takes it and whatever the others have left
behind. -/
def Plays (s : Service) (job : Job) (grant limit now : Nat) (turn : Nat → Shared → Turn)
    (f : Fate) : Prop :=
  ∃ w e, Amounts s now turn w e ∧ Begins s job grant limit now w e f

lemma Plays.after {turn : Nat → Shared → Turn} {f : Fate} (h : Plays s job grant limit now turn f)
    (es : List Event) :
    Plays s job grant limit now (fun i shared => Turn.after es (turn i shared))
      (f.after (es.map fun x => (now, x))) := by
  obtain ⟨w, e, hamounts, hbegins⟩ := h
  refine ⟨es ++ w, e, hamounts.after es, ?_⟩
  cases hbegins with
  | leaves img result =>
    have hleaves := @Begins.leaves s job grant limit now (es ++ w) img result
    rw [List.map_append] at hleaves
    exact hleaves
  | waits hrest =>
    have hwaits := @Begins.waits s job grant limit now (es ++ w) _ _ hrest
    rw [List.map_append, ← Fate.after_after] at hwaits
    exact hwaits

lemma plays_leave (img : Bool) (result : Except Failure (Http.Response × LogEntry)) :
    Plays s job grant limit now (fun i shared => leave s i now img shared result)
      (.leaves now img result) :=
  ⟨[], _, amounts_leave img result, .leaves [] img result⟩

/-- A request whose time is up fails when it looks at its deadline, and any other one goes on. -/
lemma plays_check {d : Deadline} (hd : d = .between grant limit) {turn : Nat → Shared → Turn}
    {f : Fate} (hle : now ≤ limit) (img : Bool)
    (h : now < limit → Plays s job grant limit now turn f) :
    Plays s job grant limit now
      (fun i shared =>
        match d.check (instantOf now) with
        | .error failure => leave s i now img shared (.error failure)
        | .ok () => turn i shared)
      (if now = limit then .leaves now img (.error (Fate.timeout grant limit)) else f) := by
  by_cases hlast : now = limit
  · have hcheck : d.check (instantOf now) = .error (Fate.timeout grant limit) := by
      rw [hd, Deadline.check, Deadline.isExpired_between, Deadline.elapsed_between, hlast]
      simp [Fate.timeout]
    simpa only [hcheck, if_pos hlast] using plays_leave img _
  · have hlt : now < limit := lt_of_le_of_ne hle hlast
    have hcheck : d.check (instantOf now) = .ok () := by
      rw [hd, Deadline.check, Deadline.isExpired_between, if_neg (by simpa using hlt)]
    simpa only [hcheck, if_neg hlast] using h hlt

/-- A call either ends at once, and the turn goes on, or makes the request wait. -/
lemma plays_call {d : Deadline} (hd : d = .between grant limit) {x : Event} {c : Call Bytes}
    (p : Nat → Except Failure Bytes → Phase) (next : Except Failure Bytes → Nat → Shared → Turn)
    (fate : Nat → Except Failure Bytes → Fate) (hlt : now < limit)
    (hp : ∀ tick result, tick ≤ limit → Awaits s job grant limit (p tick result) (fate tick result))
    (hnext : ∀ result, Plays s job grant limit now (next result) (fate now result)) :
    Plays s job grant limit now
      (fun i shared =>
        Turn.after [x]
          (if Deadline.tickOf (d.run (instantOf now) c).1 = now then
            next (d.run (instantOf now) c).2 i shared
          else ⟨shared, [], p (Deadline.tickOf (d.run (instantOf now) c).1)
            (d.run (instantOf now) c).2⟩))
      ((fate (c.settled now limit (Fate.timeout grant limit)).1
        (c.settled now limit (Fate.timeout grant limit)).2).after [(now, x)]) := by
  have hrun := @Deadline.run_eq_settled c grant limit now hlt
  have hle := @Call.settled_le c now limit (Fate.timeout grant limit)
  rw [← Fate.timeout, ← hd] at hrun
  rw [hrun]
  generalize c.settled now limit (Fate.timeout grant limit) = settled at hle ⊢
  obtain ⟨tick, result⟩ := settled
  simp only [Deadline.tickOf_instantOf]
  refine Plays.after ?_ [x]
  by_cases htick : tick = now
  · subst htick
    simpa only [if_true] using hnext result
  · simp only [if_neg htick]
    exact ⟨[], .waits (p tick result), fun i shared => ⟨shared.pool, rfl⟩,
      .waits [] (hp tick result hle)⟩

/-! ## The stages

The deadline of a visit stays a variable in these proofs, with an equation that says which one it is.
Otherwise the comparison of two stages would look into its instants, which are large numbers. -/

variable {v : Visit}

lemma plays_encode (hv : v.deadline = .between grant limit) (tag : Option (List Char))
    (data : Bytes) :
    Plays s job grant limit now (fun i shared => encode s job i now shared v tag data)
      (.leaves now true (Fate.encoded s job grant limit v.parsed tag data now)) := by
  refine ⟨[], _, fun i shared => ?_, .leaves [] true _⟩
  rw [Fate.encoded, ← hv]
  exact ⟨_, (encode_eq_leave s job i now shared v tag data).trans (leave_eq_turn ..)⟩

lemma plays_afterProcess (hv : v.deadline = .between grant limit) (tag : Option (List Char))
    (result : Except Failure Bytes) (hle : now ≤ limit) :
    Plays s job grant limit now (fun i shared => afterProcess s job i now shared v tag result)
      (.ofProcessed s job grant limit v.parsed tag now result) := by
  rcases result with f | data
  · exact (plays_leave true (.error f)).after [.errorCounted .processing]
  · have hseen : (if job.collaborators.reportsProcessed then [Event.processed data.length]
        else []).map (fun x => (now, x)) =
          if job.collaborators.reportsProcessed then [(now, .processed data.length)] else [] := by
      split <;> rfl
    have hrest : Plays s job grant limit now _ _ :=
      plays_check hv hle true fun _ => plays_encode hv tag data
    have hplays := hrest.after
      (if job.collaborators.reportsProcessed then [.processed data.length] else [])
    rw [hseen] at hplays
    exact hplays

lemma plays_startProcess (hv : v.deadline = .between grant limit) (source : Bytes)
    (tag : Option (List Char)) (hlt : now < limit) :
    Plays s job grant limit now (fun i shared => startProcess s job i now shared v source tag)
      (.ofProcess s job grant limit v.parsed source tag now) := by
  have hcheck : v.deadline.check (instantOf now) = .ok () := by
    rw [hv, Deadline.check, Deadline.isExpired_between, if_neg (by simpa using hlt)]
  have hleft : Deadline.tickOf (v.deadline.remaining (instantOf now)).nanos = limit - now := by
    rw [hv, Deadline.tickOf_remaining_between]
  simp only [startProcess, hcheck, hleft]
  exact plays_call hv (fun tick result => .processing v source tag tick result)
    (fun result i shared => afterProcess s job i now shared v tag result)
    (fun tick result => .ofProcessed s job grant limit v.parsed tag tick result) hlt
    (fun _ result hle => .process source tag result hv hle)
    fun result => plays_afterProcess hv tag result hlt.le

lemma plays_compare (hv : v.deadline = .between grant limit) (source : Bytes) (hlt : now < limit) :
    Plays s job grant limit now (fun i shared => compare s job i now shared v source)
      (.ofSource s job grant limit v.parsed source now) := by
  unfold Fate.ofSource compare
  simp only
  split
  · split
    · exact plays_leave true _
    · exact plays_startProcess hv source _ hlt
  · exact plays_startProcess hv source _ hlt

lemma plays_afterDownload (hv : v.deadline = .between grant limit) (result : Except Failure Bytes)
    (hle : now ≤ limit) :
    Plays s job grant limit now (fun i shared => afterDownload s job i now shared v result)
      (.ofDownloaded s job grant limit v.parsed now result) := by
  rcases result with f | source
  · exact (plays_leave false (.error f)).after [.errorCounted .download]
  · exact (plays_check hv hle true fun hlt => plays_compare hv source hlt).after
      [.downloaded source.length]

lemma plays_startDownload (hv : v.deadline = .between now limit) (hle : now ≤ limit) :
    Plays s job now limit now (fun i shared => startDownload s job i now shared v)
      (.ofParsed s job now limit v.parsed) := by
  have hleft : Deadline.tickOf (v.deadline.remaining (instantOf now)).nanos = limit - now := by
    rw [hv, Deadline.tickOf_remaining_between]
  simp only [startDownload, hleft]
  exact plays_check hv hle false fun hlt =>
    plays_call hv (fun tick result => .downloading v tick result)
      (fun result i shared => afterDownload s job i now shared v result)
      (fun tick result => .ofDownloaded s job now limit v.parsed tick result) hlt
      (fun _ result hle => .download result hv hle)
      fun result => plays_afterDownload hv result hlt.le

/-- A request that is admitted publishes the number of slots and then plays out the beginning of its
fate. -/
lemma plays_admitted {d : Deadline} (hd : d = .between now limit)
    (hstart : Deadline.start? (instantOf now) s.writeTimeout = some d) (hle : now ≤ limit) :
    ∃ turn, Plays s job now limit now turn (.ofAdmitted s job now limit) ∧
      ∀ i shared, admitted s job i now shared =
        Turn.after [.slotsInUse shared.admission.inUse] (turn i shared) := by
  rcases hparse : job.collaborators.parse job.request.target with fault | parsed
  · refine ⟨fun i shared =>
      Turn.after [.parseCalled] (leave s i now false shared (.error fault.classify)), ?_, ?_⟩
    · simp only [Fate.ofAdmitted, hparse]
      exact (plays_leave false _).after [.parseCalled]
    · intro i shared
      simp only [admitted, hstart, hparse]
  · refine ⟨fun i shared =>
      Turn.after [.parseCalled] (startDownload s job i now shared ⟨d, parsed⟩), ?_, ?_⟩
    · simp only [Fate.ofAdmitted, hparse]
      exact (plays_startDownload (v := ⟨d, parsed⟩) hd hle).after [.parseCalled]
    · intro i shared
      simp only [admitted, hstart, hparse]

/-- When the call that a request waits for ends, the request plays out the rest of its fate. -/
lemma Awaits.plays {p : Phase} {f : Fate} (h : Awaits s job grant limit p f) {q : Pending}
    (hq : p.pending? = some q) :
    Plays s job grant limit q.tick (fun i shared => fire s job i q.tick shared p) f := by
  cases h with
  | download result hv hle =>
    obtain rfl := Option.some.inj hq
    exact plays_afterDownload hv result hle
  | process source tag result hv hle =>
    obtain rfl := Option.some.inj hq
    exact plays_afterProcess hv tag result hle

/-- A request does not leave before the call ends that it waits for. -/
lemma Awaits.tick_le {p : Phase} {f : Fate} (h : Awaits s job grant limit p f) {q : Pending}
    (hq : p.pending? = some q) : q.tick ≤ f.finish := by
  cases h with
  | download result hv hle =>
    obtain rfl := Option.some.inj hq
    exact Fate.le_ofDownloaded_finish hle result
  | process source tag result hv hle =>
    obtain rfl := Option.some.inj hq
    exact (Fate.ofProcessed_finish tag _ result).ge

lemma Awaits.exists_pending {p : Phase} {f : Fate} (h : Awaits s job grant limit p f) :
    ∃ q, p.pending? = some q := by
  cases h <;> exact ⟨_, rfl⟩

end Stage

end Gateway
