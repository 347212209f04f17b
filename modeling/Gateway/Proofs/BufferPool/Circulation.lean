import Mathlib
import Gateway.BufferPool
import Gateway.Proofs.Holders

/-!
# The circulation of buffers

Buffers go from the pool to holders and back, and every holder writes into its own while others come and
go. What a holder finds in its buffer is told by its own steps alone (`BufferPool.History.content?`):
nothing at first, and then what it has written since it took the buffer or cleared it last. So is the most
room that it has asked for since it took the buffer (`BufferPool.Account`). The buffer has as much, and no
more than twice as much unless it came with more, which decides for most buffers whether they are kept.

A pool is tidy (`BufferPool.Tidy`) if it keeps no more buffers than it may, none of them too large and
all of them empty; a buffer may come in with any content, since it is emptied on the way. A desk, the
pool with the buffers that are lent, is sound if moreover no holder has two buffers and no buffer is in
two places (`BufferPool.Desk.Sound`). Every step keeps this, which is read off the three kinds of steps
there are (`BufferPool.Takes`): a buffer is taken out, changed in its place, or given back. The main
result puts this together for all histories (`circulates_of_reached`).
-/

namespace Gateway.BufferPool

/-! ## Tidy pools -/

/-- Whether a pool keeps no more buffers than it may, none of them too large, and all of them empty. -/
structure Tidy (p : BufferPool) : Prop where
  length : p.idle.length ≤ p.maxPooled
  empty : ∀ b ∈ p.idle, b.data = []
  room : ∀ b ∈ p.idle, b.capacity ≤ maxRetained

lemma tidy_new (maxPooled : Nat) : (new maxPooled).Tidy where
  length := Nat.zero_le _
  empty := by simp [new]
  room := by simp [new]

/-- Taking a buffer out leaves the others as they are. -/
lemma Tidy.take {p : BufferPool} (h : p.Tidy) : p.take.2.Tidy := by
  obtain ⟨maxPooled, idle, made⟩ := p
  cases idle with
  | nil => exact ⟨h.length, h.empty, h.room⟩
  | cons b bs =>
    obtain ⟨hlength, hempty, hroom⟩ := h
    constructor
    · exact (Nat.le_succ _).trans hlength
    · exact fun c hc => hempty c (List.mem_cons_of_mem b hc)
    · exact fun c hc => hroom c (List.mem_cons_of_mem b hc)

/-- Whatever has been written into a buffer, it is empty when it is given back. -/
lemma Tidy.giveBack {p : BufferPool} (h : p.Tidy) (b : Buffer) : (p.giveBack b).Tidy := by
  unfold BufferPool.giveBack
  split
  · exact h
  · next hroom =>
    split
    · next hlength =>
      constructor
      · exact hlength
      · intro c hc
        rcases List.mem_cons.mp hc with rfl | hc
        · rfl
        · exact h.empty c hc
      · intro c hc
        rcases List.mem_cons.mp hc with rfl | hc
        · exact Nat.le_of_not_lt hroom
        · exact h.room c hc
    · exact h

/-! ## Taking out and giving back -/

/-- A buffer that is taken out is empty, whatever it was before. -/
@[simp] lemma take_data (p : BufferPool) : p.take.1.data = [] := by
  unfold take
  split <;> rfl

@[simp] lemma take_maxPooled (p : BufferPool) : p.take.2.maxPooled = p.maxPooled := by
  unfold take
  split <;> rfl

/-- It is the first one in a tidy pool, as it is there, or a new one without any room. -/
lemma Tidy.take_eq {p : BufferPool} (h : p.Tidy) :
    p.take.1 = p.idle.headD ⟨p.made, [], 0⟩ ∧ p.take.2.idle = p.idle.tail := by
  obtain ⟨maxPooled, idle, made⟩ := p
  rcases idle with _ | ⟨⟨number, data, capacity⟩, bs⟩
  · exact ⟨rfl, rfl⟩
  · obtain rfl : data = [] := h.empty _ List.mem_cons_self
    exact ⟨rfl, rfl⟩

lemma Tidy.take_capacity {p : BufferPool} (h : p.Tidy) : p.take.1.capacity ≤ maxRetained := by
  rw [h.take_eq.1]
  rcases hidle : p.idle with _ | ⟨b, bs⟩
  · exact Nat.zero_le _
  · exact h.room b (hidle ▸ List.mem_cons_self)

/-- A buffer that is taken out was the first in the pool, or it is a new one. -/
lemma take_numbers (p : BufferPool) :
    (p.take.1.number :: p.take.2.idle.map Buffer.number = p.idle.map Buffer.number ∧
      p.take.2.made = p.made) ∨
    p.idle = [] ∧ p.take.1.number = p.made ∧ p.take.2.idle = [] ∧ p.take.2.made = p.made + 1 := by
  obtain ⟨maxPooled, idle, made⟩ := p
  rcases idle with _ | ⟨b, bs⟩
  · exact .inr ⟨rfl, rfl, rfl, rfl⟩
  · exact .inl ⟨rfl, rfl⟩

/-- A buffer is kept, without its content, if it is small enough and there is room for it. -/
lemma giveBack_idle (p : BufferPool) (b : Buffer) :
    (p.giveBack b).idle =
      if b.capacity ≤ maxRetained ∧ p.idle.length < p.maxPooled then b.clear :: p.idle
      else p.idle := by
  unfold giveBack
  split_ifs <;> first | rfl | omega

@[simp] lemma giveBack_maxPooled (p : BufferPool) (b : Buffer) :
    (p.giveBack b).maxPooled = p.maxPooled := by
  unfold giveBack
  split_ifs <;> rfl

@[simp] lemma giveBack_made (p : BufferPool) (b : Buffer) : (p.giveBack b).made = p.made := by
  unfold giveBack
  split_ifs <;> rfl

/-! ## What a holder sees -/

/-- What its own steps tell of the buffer of a holder: its content, and the most room that they have asked
for. -/
structure Account where
  content : Bytes
  asked : ℕ

namespace Step

/-- The holder that takes a step. -/
def holder : Step → String
  | get name | write name _ | reserve name _ _ | clear name | drop name => name

/-- What a step makes of the content of a buffer. -/
def edit : Step → Bytes → Bytes
  | write _ bs, content => content ++ bs
  | clear _, _ => []
  | _, content => content

/-- The room that a step asks for, in a buffer with the given content. -/
def asks (content : Bytes) : Step → ℕ
  | write _ bs => content.length + bs.length
  | reserve _ n .inAll => n
  | reserve _ n .beyond => content.length + n
  | _ => 0

/-- The room of a buffer after a step that leaves it where it is. Room that suffices stays as it is. A buffer
that has to grow gets what is asked for, if that is counted in all, and otherwise at least twice the room
that it had. -/
def room (s : Step) (b : Buffer) : ℕ :=
  if s.asks b.data ≤ b.capacity then b.capacity
  else match s with
    | reserve _ n .inAll => n
    | _ => max (max (2 * b.capacity) (s.asks b.data)) 8

/-- The account of a holder after a step, or before it if it gives the buffer back. A holder can take a
buffer if it has none and do all else if it has one. -/
def shows? : Step → Option Account → Option Account
  | get _, none => some ⟨[], 0⟩
  | get _, some _ => none
  | _, none => none
  | s, some a => some ⟨s.edit a.content, max a.asked (s.asks a.content)⟩

/-- The account of a holder after a step, if it has a buffer then. -/
def leaves? (s : Step) (account? : Option Account) : Option Account :=
  match s with
  | drop _ => none
  | s => s.shows? account?

/-- What a step makes of a buffer that stays where it is. -/
def change? : Step → Option (Buffer → Buffer)
  | write _ bs => some (·.append bs)
  | reserve _ n room => some (·.reserve n room)
  | clear _ => some Buffer.clear
  | get _ | drop _ => none

variable {s : Step} {b : Buffer}

/-- A step takes a buffer out, changes it where it is or gives it back. -/
lemma kinds (s : Step) :
    (∃ name, s = get name) ∨ (∃ f, s.change? = some f) ∨ ∃ name, s = drop name := by
  cases s with
  | get name => exact .inl ⟨name, rfl⟩
  | drop name => exact .inr (.inr ⟨name, rfl⟩)
  | _ => exact .inr (.inl ⟨_, rfl⟩)

lemma asks_le_room : s.asks b.data ≤ s.room b := by
  unfold room
  split
  · assumption
  · split
    · exact le_rfl
    · exact (Nat.le_max_right _ _).trans (Nat.le_max_left _ _)

lemma capacity_le_room : b.capacity ≤ s.room b := by
  unfold room
  split
  · exact le_rfl
  · next hgrows =>
    split
    · exact Nat.le_of_not_le hgrows
    · omega

/-- A buffer does not grow to more than twice what is asked for, small buffers apart. -/
lemma room_le : s.room b ≤ max b.capacity (max (2 * s.asks b.data) 8) := by
  unfold room
  split
  · exact Nat.le_max_left _ _
  · split
    · simp only [asks]
      omega
    · omega

/-- The content of a buffer needs no more room than a step asks for, or than it needed before. -/
lemma length_edit_le (content : Bytes) : (s.edit content).length ≤ max content.length (s.asks content) := by
  cases s <;> simp [edit, asks]

end Step

section Change

variable {s : Step} {f : Buffer → Buffer} (hf : s.change? = some f)

include hf

/-- A buffer that stays where it is keeps its number, -/
lemma number_of_change (b : Buffer) : (f b).number = b.number := by
  cases s with
  | reserve name n room => cases room <;> cases hf <;> rfl
  | _ => cases hf <;> rfl

/-- gets the content that the step makes of it -/
lemma data_of_change (b : Buffer) : (f b).data = s.edit b.data := by
  cases s with
  | reserve name n room => cases room <;> cases hf <;> rfl
  | _ => cases hf <;> rfl

/-- and the room that the step asks for. -/
lemma capacity_of_change (b : Buffer) : (f b).capacity = s.room b := by
  cases s with
  | get name => cases hf
  | write name bs =>
    cases hf
    simp [Buffer.append, Buffer.grownCapacity, Step.room, Step.asks]
  | reserve name n room =>
    cases hf
    cases room with
    | inAll =>
      exact max_def' b.capacity n
    | beyond => rfl
  | clear name =>
    cases hf
    simp [Buffer.clear, Step.room, Step.asks]
  | drop name => cases hf

/-- The desk does to it what the step does. -/
lemma step?_of_change (d : Desk) : d.step? s = d.change? s.holder f := by
  cases s with
  | get name => cases hf
  | drop name => cases hf
  | _ =>
    cases hf
    rfl

/-- A step that leaves a buffer where it is shows the account as it is afterwards. -/
lemma leaves?_of_change (a : Account) :
    s.shows? (some a) = some ⟨s.edit a.content, max a.asked (s.asks a.content)⟩ ∧
      s.leaves? (some a) = some ⟨s.edit a.content, max a.asked (s.asks a.content)⟩ := by
  cases s with
  | get name => cases hf
  | drop name => cases hf
  | _ => exact ⟨rfl, rfl⟩

/-- There is nothing to change for a holder without a buffer. -/
lemma shows?_none_of_change : s.shows? none = none := by
  cases s with
  | get name => cases hf
  | _ => rfl

end Change

/-- Whether a buffer is as an account tells: it has the content, and room for all that has been asked for,
though no more than twice as much, unless it came out of the pool with more. -/
structure Account.Fits (a : Account) (b : Buffer) : Prop where
  content : b.data = a.content
  length_le : a.content.length ≤ a.asked
  asked_le : a.asked ≤ b.capacity
  capacity_le : b.capacity ≤ max maxRetained (2 * a.asked)
  possible : b.capacity ≤ roomLimit

/-- A buffer that has been changed is as the account tells after the step. -/
lemma Account.Fits.change {a : Account} {b : Buffer} (h : a.Fits b) {s : Step} {f : Buffer → Buffer}
    (hf : s.change? = some f) (hpossible : (f b).capacity ≤ roomLimit) :
    Account.Fits ⟨s.edit a.content, max a.asked (s.asks a.content)⟩ (f b) := by
  obtain ⟨hcontent, hlength, hasked, hcapacity, -⟩ := h
  have hasks : s.asks a.content ≤ s.room b := hcontent ▸ s.asks_le_room
  have hroom : s.room b ≤ max b.capacity (max (2 * s.asks a.content) 8) := hcontent ▸ s.room_le
  have hsmall : 8 ≤ maxRetained := by decide
  refine ⟨?_, ?_, ?_, ?_, hpossible⟩
  · rw [data_of_change hf, hcontent]
  · exact (s.length_edit_le a.content).trans (max_le_max_right _ hlength)
  · rw [capacity_of_change hf]
    exact max_le (hasked.trans s.capacity_le_room) hasks
  · rw [capacity_of_change hf]
    change s.room b ≤ max maxRetained (2 * max a.asked (s.asks a.content))
    omega

/-- The steps so far, the latest last. -/
abbrev History := List Step

namespace History

/-- The account of a holder after a history, if it has a buffer: this is told by its own steps. -/
def account? (h : History) (name : String) : Option Account :=
  (h.filter fun s => s.holder = name).foldl (fun account? s => s.leaves? account?) none

/-- What a holder has in its buffer after a history, if it has one. -/
def content? (h : History) (name : String) : Option Bytes := (h.account? name).map Account.content

lemma account?_concat (h : History) (s : Step) (name : String) :
    account? (h ++ [s]) name =
      if s.holder = name then s.leaves? (h.account? name) else h.account? name := by
  unfold account?
  split_ifs with hname <;> simp [List.filter_append, hname]

end History

/-! ## Steps -/

namespace Desk

/-- Who holds a buffer. -/
def holders (d : Desk) : List String := d.lent.map Prod.fst

/-- The buffers in all places, by their numbers: those in the pool and those that are lent. -/
def numbers (d : Desk) : List Nat := (d.pool.idle ++ d.lent.map Prod.snd).map Buffer.number

/-- What a holder has in its buffer, if it has one. -/
def content? (d : Desk) (name : String) : Option Bytes := (d.lent.lookup name).map Buffer.data

/-- Whether a desk is in order: the pool is tidy and keeps to its limit, no holder has two buffers, no
buffer is in two places, and new buffers have new numbers. -/
structure Sound (maxPooled : Nat) (d : Desk) : Prop where
  limit : d.pool.maxPooled = maxPooled
  tidy : d.pool.Tidy
  oneEach : d.holders.Nodup
  apart : d.numbers.Nodup
  made : ∀ n ∈ d.numbers, n < d.pool.made

end Desk

variable {maxPooled : Nat} {d d' : Desk} {s : Step} {name : String} {data : Bytes} {b : Buffer}

/-- What a step does with a desk, and what the holder finds in its buffer. -/
inductive Takes (d : Desk) : Step → Desk → Bytes → Prop where
  /-- A buffer is taken out. -/
  | get {name : String} (hnew : name ∉ d.holders) :
      Takes d (.get name) ⟨d.pool.take.2, d.lent ++ [(name, d.pool.take.1)]⟩ []
  /-- A buffer is changed in its place. -/
  | change {s : Step} {f : Buffer → Buffer} (hf : s.change? = some f) {b : Buffer}
      (hpossible : (f b).capacity ≤ roomLimit)
      {before after : List (String × Buffer)} (hlent : d.lent = before ++ (s.holder, b) :: after)
      (hothers : s.holder ∉ (before ++ after).map Prod.fst) :
      Takes d s ⟨d.pool, before ++ (s.holder, f b) :: after⟩ (f b).data
  /-- A buffer is given back. -/
  | drop {name : String} {b : Buffer} {before after : List (String × Buffer)}
      (hlent : d.lent = before ++ (name, b) :: after)
      (hothers : name ∉ (before ++ after).map Prod.fst) :
      Takes d (.drop name) ⟨d.pool.giveBack b, before ++ after⟩ b.data

/-- The buffer of a holder stands in one place among those that are lent. -/
lemma exists_place (hnodup : d.holders.Nodup) (hb : d.lent.lookup name = some b) :
    ∃ before after, d.lent = before ++ (name, b) :: after ∧
      name ∉ (before ++ after).map Prod.fst := by
  obtain ⟨before, after, hlent, -⟩ := List.lookup_eq_some_iff.mp hb
  refine ⟨before, after, hlent, ?_⟩
  rw [Desk.holders, hlent, List.map_append, List.map_cons, List.nodup_middle, List.nodup_cons] at hnodup
  rw [List.map_append]
  exact hnodup.1

section Place

variable {before after : List (String × Buffer)} (hothers : name ∉ (before ++ after).map Prod.fst)

include hothers

/-- What is found at that place. -/
lemma lookup_place (other : String) : (before ++ (name, b) :: after).lookup other =
    if name = other then some b else (before ++ after).lookup other := by
  rw [List.map_append, List.mem_append, not_or] at hothers
  rw [List.lookup_append, List.lookup_append, List.lookup_cons]
  split_ifs with hname
  · subst hname
    rw [lookup_eq_none_iff.mpr hothers.1]
    simp
  · have hne : (other == name) = false := beq_eq_false_iff_ne.mpr fun h => hname h.symm
    rw [hne]

/-- A buffer is changed in its place. -/
lemma map_place (c : Buffer) :
    ((before ++ (name, b) :: after).map fun l => if l.1 == name then (name, c) else l) =
      before ++ (name, c) :: after := by
  have hkept {lent : List (String × Buffer)} (hlent : name ∉ lent.map Prod.fst) :
      (lent.map fun l => if l.1 == name then (name, c) else l) = lent := by
    refine (List.map_congr_left fun l hl => ?_).trans (List.map_id lent)
    have hne : l.1 ≠ name := fun heq => hlent (List.mem_map.mpr ⟨l, hl, heq⟩)
    simp [hne]
  rw [List.map_append, List.mem_append, not_or] at hothers
  rw [List.map_append, List.map_cons, hkept hothers.1, hkept hothers.2,
    if_pos (beq_self_eq_true name)]

/-- A buffer is taken from its place. -/
lemma filter_place :
    (before ++ (name, b) :: after).filter (fun l => l.1 != name) = before ++ after := by
  have hkept {lent : List (String × Buffer)} (hlent : name ∉ lent.map Prod.fst) :
      lent.filter (fun l => l.1 != name) = lent :=
    List.filter_eq_self.mpr fun l hl => bne_iff_ne.mpr fun heq =>
      hlent (List.mem_map.mpr ⟨l, hl, heq⟩)
  rw [List.map_append, List.mem_append, not_or] at hothers
  rw [List.filter_append, List.filter_cons_of_neg (by simp), hkept hothers.1, hkept hothers.2]

end Place

/-- A step that is possible does one of the things that steps do. -/
lemma takes_of_step? (hnodup : d.holders.Nodup) (hstep : d.step? s = some (d', data)) :
    Takes d s d' data := by
  rcases s.kinds with ⟨name, rfl⟩ | ⟨f, hf⟩ | ⟨name, rfl⟩
  · rcases hlookup : d.lent.lookup name with _ | b
    · simp only [Desk.step?, hlookup, Option.isSome_none, Bool.false_eq_true, if_false,
        Option.some.injEq, Prod.mk.injEq, take_data] at hstep
      obtain ⟨rfl, rfl⟩ := hstep
      exact .get (lookup_eq_none_iff.mp hlookup)
    · simp [Desk.step?, hlookup] at hstep
  · rw [step?_of_change hf] at hstep
    obtain ⟨b, hb, heq⟩ := Option.bind_eq_some_iff.mp hstep
    obtain ⟨hpossible, heq⟩ := Option.ite_none_right_eq_some.mp heq
    obtain ⟨before, after, hlent, hothers⟩ := exists_place hnodup hb
    obtain ⟨rfl, rfl⟩ := Prod.mk.inj (Option.some.inj heq)
    rw [hlent, map_place hothers]
    exact .change hf hpossible hlent hothers
  · obtain ⟨b, hb, heq⟩ := Option.map_eq_some_iff.mp hstep
    obtain ⟨before, after, hlent, hothers⟩ := exists_place hnodup hb
    obtain ⟨rfl, rfl⟩ := Prod.mk.inj heq
    rw [hlent, filter_place hothers]
    exact .drop hlent hothers

/-- A buffer that stays with its holder is the same one after a step, with the room that the step asks
for. -/
lemma Takes.room {b' : Buffer} (h : Takes d s d' data) (hb : d.lent.lookup s.holder = some b)
    (hb' : d'.lent.lookup s.holder = some b') : b'.number = b.number ∧ b'.capacity = s.room b := by
  cases h with
  | @get name hnew =>
    rw [Step.holder, lookup_eq_none_iff.mpr hnew] at hb
    cases hb
  | @change s f hf c hpossible before after hlent hothers =>
    rw [hlent, lookup_place hothers, if_pos rfl] at hb
    rw [lookup_place hothers, if_pos rfl] at hb'
    rw [← Option.some.inj hb, ← Option.some.inj hb']
    exact ⟨number_of_change hf c, capacity_of_change hf c⟩
  | @drop name c before after hlent hothers =>
    rw [Step.holder, lookup_eq_none_iff.mpr hothers] at hb'
    cases hb'

/-! ## Accounts -/

/-- Whether the buffers of all holders are as their accounts tell. -/
def Accounted (account? : String → Option Account) (d : Desk) : Prop :=
  ∀ name, Option.Rel Account.Fits (account? name) (d.lent.lookup name)

variable {account? : String → Option Account}

/-- A holder has neither an account nor a buffer, or it has both, and they fit. -/
lemma Accounted.none_or_fits (hd : Accounted account? d) (name : String) :
    (account? name = none ∧ d.lent.lookup name = none) ∨
    ∃ a b, account? name = some a ∧ d.lent.lookup name = some b ∧ a.Fits b := by
  have hrel := hd name
  generalize account? name = a? at hrel
  generalize d.lent.lookup name = b? at hrel
  cases hrel with
  | none => exact .inl ⟨rfl, rfl⟩
  | some hfits => exact .inr ⟨_, _, rfl, rfl, hfits⟩

/-- A buffer that comes out of a tidy pool is as the account of a new holder tells. -/
lemma Tidy.fits_take {p : BufferPool} (h : p.Tidy) : Account.Fits ⟨[], 0⟩ p.take.1 where
  content := take_data p
  length_le := Nat.le_refl 0
  asked_le := Nat.zero_le _
  capacity_le := h.take_capacity.trans (Nat.le_max_left _ _)
  possible := h.take_capacity.trans (by decide)

/-- After a step the buffer of its holder is as the account tells that the step leaves, and all others are
as they were. -/
lemma Takes.accounted (h : Takes d s d' data) (hpool : d.pool.Tidy) (hd : Accounted account? d)
    (other : String) : Option.Rel Account.Fits
      (if s.holder = other then s.leaves? (account? other) else account? other)
      (d'.lent.lookup other) := by
  have hother := hd other
  cases h with
  | @get name hnew =>
    have hnone := lookup_eq_none_iff.mpr hnew
    simp only [List.lookup_append, List.lookup_cons, List.lookup_nil]
    by_cases hname : name = other
    · subst hname
      rcases hd.none_or_fits name with ⟨ha, -⟩ | ⟨a, b, -, hb, -⟩
      · simpa [Step.holder, Step.leaves?, Step.shows?, ha, hnone] using
          Option.Rel.some hpool.fits_take
      · exact absurd (hnone.symm.trans hb) (by simp)
    · have hne : (other == name) = false := beq_eq_false_iff_ne.mpr fun h => hname h.symm
      simpa [Step.holder, hname, hne] using hother
  | @change s f hf b hpossible before after hlent hothers =>
    rw [hlent, lookup_place hothers] at hother
    rw [lookup_place hothers]
    split_ifs at hother ⊢ with hname
    · rcases haccount : account? other with _ | a <;> rw [haccount] at hother
      · cases hother
      · cases hother with
        | some hfits =>
          rw [(leaves?_of_change hf a).2]
          exact .some (hfits.change hf hpossible)
    · exact hother
  | @drop name b before after hlent hothers =>
    rw [hlent, lookup_place hothers] at hother
    by_cases hname : name = other
    · subst hname
      rw [lookup_eq_none_iff.mpr hothers, if_pos (show (Step.drop name).holder = name from rfl)]
      exact .none
    · rw [if_neg hname] at hother
      rwa [if_neg (show (Step.drop name).holder ≠ other from hname)]

/-- A step is possible if its holder can take it, unless it takes more room than anything can have. It shows
the content of the account. -/
lemma Accounted.map_step? (hd : Accounted account? d)
    (hpossible : ∀ b, d.lent.lookup s.holder = some b → s.room b ≤ roomLimit) :
    (d.step? s).map Prod.snd = (s.shows? (account? s.holder)).map Account.content := by
  rcases hd.none_or_fits s.holder with ⟨ha, hb⟩ | ⟨a, b, ha, hb, hfits⟩ <;> rw [ha]
  · rcases s.kinds with ⟨name, rfl⟩ | ⟨f, hf⟩ | ⟨name, rfl⟩
    · simp [Desk.step?, Step.shows?, show d.lent.lookup name = none from hb]
    · simp [step?_of_change hf, Desk.change?, hb, shows?_none_of_change hf]
    · simp [Desk.step?, Step.shows?, show d.lent.lookup name = none from hb]
  · rcases s.kinds with ⟨name, rfl⟩ | ⟨f, hf⟩ | ⟨name, rfl⟩
    · simp [Desk.step?, Step.shows?, show d.lent.lookup name = some b from hb]
    · have hroom : (f b).capacity ≤ roomLimit := capacity_of_change hf b ▸ hpossible b hb
      rw [step?_of_change hf, Desk.change?, hb, Option.bind_some, if_pos hroom,
        (leaves?_of_change hf a).1]
      simp [data_of_change hf, hfits.content]
    · simp [Desk.step?, Step.shows?, Step.edit, show d.lent.lookup name = some b from hb, hfits.content]

/-- A step that takes more room than anything can have is not possible. -/
lemma Accounted.step?_eq_none (hd : Accounted account? d) (hb : d.lent.lookup s.holder = some b)
    (hlimit : roomLimit < s.room b) : d.step? s = none := by
  rcases s.kinds with ⟨name, rfl⟩ | ⟨f, hf⟩ | ⟨name, rfl⟩
  · simp [Desk.step?, show d.lent.lookup name = some b from hb]
  · have hlarge : ¬ (f b).capacity ≤ roomLimit :=
      Nat.not_le_of_lt (capacity_of_change hf b ▸ hlimit)
    rw [step?_of_change hf, Desk.change?, hb, Option.bind_some, if_neg hlarge]
  · rcases hd.none_or_fits name with ⟨-, hnone⟩ | ⟨a, b', -, hb', hfits⟩
    · exact absurd (hnone.symm.trans hb) (by simp)
    · obtain rfl := Option.some.inj (hb'.symm.trans hb)
      -- giving a buffer back asks for nothing
      have hroom : (Step.drop name).room b' = b'.capacity := if_pos (Nat.zero_le _)
      exact absurd hfits.possible (Nat.not_le_of_lt (hroom ▸ hlimit))

/-! ## Desks in order -/

/-- An empty desk is in order. -/
lemma sound_new (maxPooled : Nat) : Desk.Sound maxPooled ⟨new maxPooled, []⟩ where
  limit := rfl
  tidy := tidy_new maxPooled
  oneEach := List.nodup_nil
  apart := List.nodup_nil
  made := by simp [Desk.numbers, new]

/-- Every step leaves a desk in order. -/
lemma Takes.sound (h : Takes d s d' data) (hd : d.Sound maxPooled) : d'.Sound maxPooled := by
  obtain ⟨hlimit, htidy, honeEach, hapart, hmade⟩ := hd
  cases h with
  | @get name hnew =>
    have hperm : (Desk.numbers ⟨d.pool.take.2, d.lent ++ [(name, d.pool.take.1)]⟩).Perm
        (d.pool.take.1.number :: d.pool.take.2.idle.map Buffer.number ++
          (d.lent.map Prod.snd).map Buffer.number) := by
      simp only [Desk.numbers, List.map_append, List.map_cons, List.map_nil]
      rw [← List.append_assoc]
      exact List.perm_append_singleton _ _
    have hholders : (Desk.holders ⟨d.pool.take.2, d.lent ++ [(name, d.pool.take.1)]⟩).Nodup := by
      rw [Desk.holders, List.map_append]
      exact honeEach.append (List.nodup_singleton name) (List.disjoint_singleton.mpr hnew)
    rcases take_numbers d.pool with ⟨hfirst, hsame⟩ | ⟨hempty, hnumber, hidle, hnext⟩
    · rw [hfirst, ← List.map_append] at hperm
      refine ⟨(take_maxPooled _).trans hlimit, htidy.take, hholders, hperm.nodup_iff.mpr hapart, ?_⟩
      intro n hn
      rw [hsame]
      exact hmade n (hperm.mem_iff.mp hn)
    · have hnumbers : d.numbers = (d.lent.map Prod.snd).map Buffer.number := by
        rw [Desk.numbers, hempty, List.nil_append]
      rw [hidle, hnumber, List.map_nil, List.cons_append, List.nil_append, ← hnumbers] at hperm
      have hfresh : d.pool.made ∉ d.numbers := fun hmem => (hmade _ hmem).ne rfl
      refine ⟨(take_maxPooled _).trans hlimit, htidy.take, hholders,
        hperm.nodup_iff.mpr (List.nodup_cons.mpr ⟨hfresh, hapart⟩), ?_⟩
      intro n hn
      rw [hnext]
      rcases List.mem_cons.mp (hperm.mem_iff.mp hn) with rfl | hn
      · exact Nat.lt_succ_self _
      · exact (hmade n hn).trans (Nat.lt_succ_self _)
  | @change s f hf b hpossible before after hlent hothers =>
    have hnumbers : Desk.numbers ⟨d.pool, before ++ (s.holder, f b) :: after⟩ = d.numbers := by
      simp [Desk.numbers, hlent, number_of_change hf]
    refine ⟨hlimit, htidy, ?_, hnumbers ▸ hapart, hnumbers ▸ hmade⟩
    simpa [Desk.holders, hlent] using honeEach
  | @drop name b before after hlent hothers =>
    have hperm : d.numbers.Perm
        (b.number :: (d.pool.idle ++ (before ++ after).map Prod.snd).map Buffer.number) := by
      simp only [Desk.numbers, hlent, List.map_append, List.map_cons]
      rw [← List.append_assoc, ← List.append_assoc]
      exact List.perm_middle
    -- the number of the buffer stays, or it is dropped with the buffer
    have hsub : (Desk.numbers ⟨d.pool.giveBack b, before ++ after⟩).Sublist
        (b.number :: (d.pool.idle ++ (before ++ after).map Prod.snd).map Buffer.number) := by
      rw [Desk.numbers, giveBack_idle]
      split_ifs
      · exact List.Sublist.refl _
      · exact List.sublist_cons_self _ _
    refine ⟨(giveBack_maxPooled _ b).trans hlimit, htidy.giveBack b, ?_,
      (hperm.nodup_iff.mp hapart).sublist hsub, ?_⟩
    · rw [Desk.holders, hlent, List.map_append, List.map_cons, List.nodup_middle,
        List.nodup_cons, ← List.map_append] at honeEach
      exact honeEach.2
    · intro n hn
      rw [giveBack_made]
      exact hmade n (hperm.mem_iff.mpr (hsub.subset hn))

/-! ## Histories -/

/-- The desks to which histories lead from a fresh pool, if there can be one of this size. -/
inductive Reached (maxPooled : Nat) : History → Desk → Prop where
  | start {p : BufferPool} (hnew : new? maxPooled = some p) : Reached maxPooled [] ⟨p, []⟩
  | step {h : History} {d d' : Desk} {s : Step} {data : Bytes} (hreach : Reached maxPooled h d)
      (hstep : d.step? s = some (d', data)) : Reached maxPooled (h ++ [s]) d'

variable {h : History}

/-- In every state that is reached the desk is in order. -/
lemma sound_of_reached (hreach : Reached maxPooled h d) : d.Sound maxPooled := by
  induction hreach with
  | start hnew =>
    unfold new? at hnew
    split_ifs at hnew
    obtain rfl := Option.some.inj hnew
    exact sound_new maxPooled
  | step _ hstep ih => exact (takes_of_step? ih.oneEach hstep).sound ih

/-- The buffers of the holders are as their own steps tell. -/
lemma accounted_of_reached (hreach : Reached maxPooled h d) : Accounted h.account? d := by
  induction hreach with
  | start => exact fun _ => .none
  | @step h d d' s data hreach hstep ih =>
    have hd := sound_of_reached hreach
    have htakes := takes_of_step? hd.oneEach hstep
    intro name
    rw [History.account?_concat]
    exact htakes.accounted hd.tidy ih name

/-- What a pool promises in a state to which a history has led. -/
structure Circulates (maxPooled : ℕ) (h : History) (d : Desk) : Prop where
  /-- The pool holds no more buffers than it may, -/
  bounded : d.pool.idle.length ≤ maxPooled
  /-- all of them empty -/
  empty : ∀ b ∈ d.pool.idle, b.data = []
  /-- and none of them too large. -/
  small : ∀ b ∈ d.pool.idle, b.capacity ≤ maxRetained
  /-- No holder has two buffers, -/
  oneEach : d.holders.Nodup
  /-- in the buffer of a holder is what its own steps have left there, -/
  content : ∀ name, d.content? name = h.content? name
  /-- and it has room for all that they have asked for, though no more than twice as much, unless it came
  out of the pool with more. -/
  fits : ∀ name a b, h.account? name = some a → d.lent.lookup name = some b → a.Fits b
  /-- No buffer is in two places. -/
  apart : d.numbers.Nodup
  /-- A buffer can be taken by a name that has none, and is empty then; all other steps are possible for
  a name that has one, and show what it has written; -/
  shows : ∀ s, (∀ b, d.lent.lookup s.holder = some b → s.room b ≤ roomLimit) →
    (d.step? s).map Prod.snd = (s.shows? (h.account? s.holder)).map Account.content
  /-- but none that takes more room than anything can have. -/
  fails : ∀ s b, d.lent.lookup s.holder = some b → roomLimit < s.room b → d.step? s = none
  /-- The buffer that is taken is the one given back last, with the room that it has, or a new one. -/
  get : ∀ name, name ∉ d.holders → ∃ d' : Desk, d.step? (.get name) = some (d', []) ∧
    d'.lent.lookup name = some (d.pool.idle.headD ⟨d.pool.made, [], 0⟩) ∧
    d'.pool.idle = d.pool.idle.tail
  /-- A buffer that stays with its holder is the same one after a step, with the room that the step asks
  for. -/
  room : ∀ s b d' data b', d.lent.lookup s.holder = some b → d.step? s = some (d', data) →
    d'.lent.lookup s.holder = some b' → b'.number = b.number ∧ b'.capacity = s.room b
  /-- A buffer that is given back is kept, without its content, exactly if it is not too large and there
  is room for it. -/
  drop : ∀ name b, d.lent.lookup name = some b → ∃ d' : Desk,
    d.step? (.drop name) = some (d', b.data) ∧
    d'.pool.idle = (if b.capacity ≤ maxRetained ∧ d.pool.idle.length < maxPooled then
      b.clear :: d.pool.idle else d.pool.idle) ∧
    name ∉ d'.holders
  /-- So it is not kept if more has been asked for than may be kept, -/
  dismissed : ∀ name a, h.account? name = some a → maxRetained < a.asked → ∃ d' : Desk,
    d.step? (.drop name) = some (d', a.content) ∧ d'.pool.idle = d.pool.idle
  /-- and it is kept if no more than half as much has been asked for and there is room for it. -/
  kept : ∀ name a, h.account? name = some a → 2 * a.asked ≤ maxRetained →
    d.pool.idle.length < maxPooled → ∃ (d' : Desk) (b : Buffer),
      d.step? (.drop name) = some (d', a.content) ∧ d'.pool.idle = b :: d.pool.idle

section Promises

variable (hreach : Reached maxPooled h d)

include hreach

/-- A holder with an account has a buffer that is as the account tells. -/
lemma exists_fits {a : Account} (ha : h.account? name = some a) :
    ∃ b, d.lent.lookup name = some b ∧ a.Fits b := by
  rcases (accounted_of_reached hreach).none_or_fits name with ⟨hnone, -⟩ | ⟨a', b, ha', hb, hfits⟩
  · exact absurd (hnone.symm.trans ha) (by simp)
  · obtain rfl := Option.some.inj (ha'.symm.trans ha)
    exact ⟨b, hb, hfits⟩

/-- What the holders have in their buffers is what they have written there. -/
lemma content?_of_reached (name : String) : d.content? name = h.content? name := by
  unfold Desk.content? History.content?
  rcases (accounted_of_reached hreach).none_or_fits name with ⟨ha, hb⟩ | ⟨a, b, ha, hb, hfits⟩
  · rw [ha, hb]
    rfl
  · rw [ha, hb]
    exact congrArg some hfits.content

/-- What is taken out of the pool. -/
lemma exists_of_get (hnew : name ∉ d.holders) : ∃ d' : Desk, d.step? (.get name) = some (d', []) ∧
    d'.lent.lookup name = some (d.pool.idle.headD ⟨d.pool.made, [], 0⟩) ∧
    d'.pool.idle = d.pool.idle.tail := by
  have hnone := lookup_eq_none_iff.mpr hnew
  obtain ⟨hfirst, hrest⟩ := (sound_of_reached hreach).tidy.take_eq
  refine ⟨⟨d.pool.take.2, d.lent ++ [(name, d.pool.take.1)]⟩, ?_, ?_, hrest⟩
  · simp [Desk.step?, hnone]
  · simp [List.lookup_append, hnone, hfirst]

/-- What is given back is kept exactly if it is not too large and there is room for it. -/
lemma exists_of_drop (hb : d.lent.lookup name = some b) : ∃ d' : Desk,
    d.step? (.drop name) = some (d', b.data) ∧
    d'.pool.idle = (if b.capacity ≤ maxRetained ∧ d.pool.idle.length < maxPooled then
      b.clear :: d.pool.idle else d.pool.idle) ∧
    name ∉ d'.holders := by
  have hd := sound_of_reached hreach
  obtain ⟨before, after, hlent, hothers⟩ := exists_place hd.oneEach hb
  refine ⟨⟨d.pool.giveBack b, before ++ after⟩, ?_, ?_, hothers⟩
  · rw [Desk.step?, hb, Option.map_some, hlent, filter_place hothers]
  · rw [giveBack_idle, hd.limit]

end Promises

/-- Whatever the holders do and in whatever order, the pool keeps to its limits, every holder finds in
its buffer what it has written there and has the room that it has asked for, and no buffer is in two
places. -/
theorem circulates_of_reached (hreach : Reached maxPooled h d) : Circulates maxPooled h d := by
  have hd := sound_of_reached hreach
  have haccounted := accounted_of_reached hreach
  constructor
  case bounded => exact hd.limit ▸ hd.tidy.length
  case empty => exact hd.tidy.empty
  case small => exact hd.tidy.room
  case oneEach => exact hd.oneEach
  case content => exact content?_of_reached hreach
  case fits =>
    intro name a b ha hb
    obtain ⟨b', hb', hfits⟩ := exists_fits hreach ha
    obtain rfl := Option.some.inj (hb.symm.trans hb')
    exact hfits
  case apart => exact hd.apart
  case shows => exact fun s hpossible => haccounted.map_step? hpossible
  case fails => exact fun s b hb hlimit => haccounted.step?_eq_none hb hlimit
  case get => exact fun name hnew => exists_of_get hreach hnew
  case room =>
    intro s b d' data b' hb hstep hb'
    exact (takes_of_step? hd.oneEach hstep).room hb hb'
  case drop => exact fun name b hb => exists_of_drop hreach hb
  case dismissed =>
    intro name a ha hasked
    obtain ⟨b, hb, hfits⟩ := exists_fits hreach ha
    obtain ⟨d', hstep, hidle, -⟩ := exists_of_drop hreach hb
    have hlarge : ¬ b.capacity ≤ maxRetained := Nat.not_le_of_lt (hasked.trans_le hfits.asked_le)
    rw [if_neg fun hboth => hlarge hboth.1] at hidle
    exact ⟨d', hfits.content ▸ hstep, hidle⟩
  case kept =>
    intro name a ha hasked hlength
    obtain ⟨b, hb, hfits⟩ := exists_fits hreach ha
    obtain ⟨d', hstep, hidle, -⟩ := exists_of_drop hreach hb
    have hsmall : b.capacity ≤ maxRetained := hfits.capacity_le.trans (max_le le_rfl hasked)
    rw [if_pos ⟨hsmall, hlength⟩] at hidle
    exact ⟨d', b.clear, hfits.content ▸ hstep, hidle⟩

/-- A number of mebibytes, in bytes. -/
def mebibytes (n : ℕ) : ℕ := n * 1024 * 1024

/-- Three holders of two buffers. The first one asks for five mebibytes and gives its buffer back to the
second one, who asks for six more when there is a byte in it already. -/
def threeHolders : History :=
  [.get "a", .reserve "a" (mebibytes 5) .beyond, .get "b", .write "b" [1, 2], .drop "a", .get "c",
    .write "c" [3], .reserve "c" (mebibytes 6) .beyond]

/-- The buffer with five mebibytes has been kept, and has ten of them now, so that it will not be kept
again although the pool is empty. The other buffer will be, as it has two bytes and room for eight. Nobody
can ask for more room than anything can have. -/
theorem circulates_of_threeHolders :
    let d : Desk := ⟨⟨1, [], 2⟩, [("b", ⟨1, [1, 2], 8⟩), ("c", ⟨0, [3], mebibytes 10⟩)]⟩
    Reached 1 threeHolders d ∧ Circulates 1 threeHolders d ∧
      threeHolders.content? "c" = some [3] ∧
      (d.step? (.drop "c")).map (fun r => r.1.pool.idle) = some [] ∧
      (d.step? (.drop "b")).map (fun r => r.1.pool.idle) = some [⟨1, [], 8⟩] ∧
      d.step? (.reserve "b" roomLimit .beyond) = none := by
  intro d
  have h₁ : Reached 1 [.get "a"] ⟨⟨1, [], 1⟩, [("a", ⟨0, [], 0⟩)]⟩ :=
    .step (h := []) (.start (p := new 1) (by decide)) rfl
  have h₂ := h₁.step (s := .reserve "a" (mebibytes 5) .beyond) rfl
  have h₃ := h₂.step (s := .get "b") rfl
  have h₄ := h₃.step (s := .write "b" [1, 2]) rfl
  have h₅ := h₄.step (s := .drop "a") rfl
  have h₆ := h₅.step (s := .get "c") rfl
  have h₇ := h₆.step (s := .write "c" [3]) rfl
  have hgrown : Buffer.grownCapacity (mebibytes 5) (1 + mebibytes 6) = mebibytes 10 := by decide
  have hreach : Reached 1 threeHolders ⟨⟨1, [], 2⟩, [("b", ⟨1, [1, 2], 8⟩),
      ("c", ⟨0, [3], Buffer.grownCapacity (mebibytes 5) (1 + mebibytes 6)⟩)]⟩ :=
    h₇.step (s := .reserve "c" (mebibytes 6) .beyond) rfl
  rw [hgrown] at hreach
  exact ⟨hreach, circulates_of_reached hreach, by decide +kernel, rfl, rfl, rfl⟩

end Gateway.BufferPool
