import Mathlib
import Gateway.Connections
import Gateway.Proofs.Holders

/-!
# The books of open connections

Connections are opened through any of the handles that share them and closed in any order, and three
things are kept about them: how many are open, what was published last, and the next number. They agree
after every step. Which slots are open is told by the history alone (`Connections.History.live`): those
that have been opened and not closed since. Their number is the count, and it is what every opening and
closing publishes; in particular a slot that is closed was counted, so that the count never goes below
zero. The numbers of the slots increase from one opening to the next, whatever is closed in between, and
also if numbers are used up for connections elsewhere (`counted_of_reached`).

The invariant that carries this (`Connections.Sound`) balances the books: the slots that are open and
those that have been closed are together the ones that have been opened, each of them once.
-/

namespace Gateway.Connections

variable {first : Nat} {c c' : Connections} {s : Step} {slot : Slot} {events : List Event}

/-! ## Steps -/

/-- What a step does with connections, which slot it concerns, and what it publishes. -/
inductive Takes (c : Connections) : Step → Connections → Slot → List Event → Prop where
  | opened {name : String} (peer : SocketAddress) (hfree : c.slot? name = none) :
      Takes c (.opened name peer)
        ⟨c.next + 1, c.count + 1, c.slots ++ [(name, ⟨c.next, peer⟩)]⟩ ⟨c.next, peer⟩
        [.openConnections (c.count + 1)]
  | closed {name : String} {slot : Slot} (hslot : c.slot? name = some slot) :
      Takes c (.closed name) ⟨c.next, c.count - 1, c.slots.filter fun l => l.1 != name⟩ slot
        [.openConnections (c.count - 1)]

/-- These are the steps that connections take. -/
lemma step?_eq_some_iff : c.step? s = some (c', slot, events) ↔ Takes c s c' slot events := by
  constructor
  · intro hstep
    cases s with
    | opened name peer =>
      rcases hslot : c.slot? name with _ | held
      · simp only [step?, hslot, Option.isSome_none, Bool.false_eq_true, if_false,
          Option.some.injEq, Prod.mk.injEq] at hstep
        obtain ⟨rfl, rfl, rfl⟩ := hstep
        exact .opened peer hslot
      · simp [step?, hslot] at hstep
    | closed name =>
      obtain ⟨held, hslot, heq⟩ := Option.map_eq_some_iff.mp hstep
      simp only [Prod.mk.injEq] at heq
      obtain ⟨rfl, rfl, rfl⟩ := heq
      exact .closed hslot
  · intro htakes
    cases htakes with
    | opened peer hfree => simp [step?, hfree]
    | closed hslot => simp [step?, hslot]

/-! ## Histories -/

/-- The steps so far, the latest last, each with the slot concerned and what was published. -/
abbrev History := List (Step × Slot × List Event)

namespace History

/-- The slot that is opened in a step, if any. -/
def opens? : Step × Slot × List Event → Option Slot
  | (.opened _ _, slot, _) => some slot
  | (.closed _, _, _) => none

/-- The slot that is closed in a step, if any. -/
def closes? : Step × Slot × List Event → Option Slot
  | (.opened _ _, _, _) => none
  | (.closed _, slot, _) => some slot

/-- The slots that have been opened, in order. -/
def opened (h : History) : List Slot := h.filterMap opens?

/-- The slots that have been closed, in order. -/
def closed (h : History) : List Slot := h.filterMap closes?

/-- The slots that are open: those that have been opened and not closed since. -/
def live (h : History) : List Slot := h.opened.filter (· ∉ h.closed)

variable {h : History} {name : String} {peer : SocketAddress}

@[simp] lemma opened_opened :
    opened (h ++ [(.opened name peer, slot, events)]) = h.opened ++ [slot] := by
  simp [opened, opens?]

@[simp] lemma closed_opened : closed (h ++ [(.opened name peer, slot, events)]) = h.closed := by
  simp [closed, closes?]

@[simp] lemma opened_closed : opened (h ++ [(.closed name, slot, events)]) = h.opened := by
  simp [opened, opens?]

@[simp] lemma closed_closed :
    closed (h ++ [(.closed name, slot, events)]) = h.closed ++ [slot] := by
  simp [closed, closes?]

/-- A slot that is opened is open, unless it has been closed before. -/
lemma live_opened (hnew : slot ∉ h.closed) :
    live (h ++ [(.opened name peer, slot, events)]) = h.live ++ [slot] := by
  simp [live, hnew]

/-- A slot that is closed is not open any more, if no slot has been opened twice. -/
lemma live_closed (hnodup : h.opened.Nodup) :
    live (h ++ [(.closed name, slot, events)]) = h.live.erase slot := by
  have hlive : h.live.Nodup := hnodup.filter _
  rw [hlive.erase_eq_filter, live, live, opened_closed, closed_closed, List.filter_filter]
  refine List.filter_congr fun other _ => ?_
  simp [and_comm, bne, beq_eq_decide]

end History

/-- The connections to which histories lead from new ones, with the handles through which connections
can be opened; there is one handle at first. -/
inductive Reached (first : Nat) (owner : String) : List String → History → Connections → Prop where
  | start : Reached first owner [owner] [] (new first)
  /-- A handle is copied. The copy shares the connections. -/
  | copy {handles : List String} {h : History} {c : Connections} {handle : String}
      (hreach : Reached first owner handles h c) (hhandle : handle ∈ handles) (name : String) :
      Reached first owner (handles ++ [name]) h c
  /-- A handle is dropped. The slots stay. -/
  | drop {handles : List String} {h : History} {c : Connections}
      (hreach : Reached first owner handles h c) (handle : String) :
      Reached first owner (handles.erase handle) h c
  /-- Numbers are used up for connections elsewhere. -/
  | elsewhere {handles : List String} {h : History} {c : Connections}
      (hreach : Reached first owner handles h c) (n : Nat) :
      Reached first owner handles h { c with next := c.next + n }
  /-- A connection is opened through a handle. -/
  | opened {handles : List String} {h : History} {c c' : Connections} {handle : String} {slot : Slot}
      {events : List Event} (hreach : Reached first owner handles h c) (hhandle : handle ∈ handles)
      (name : String) (peer : SocketAddress)
      (hstep : c.step? (.opened name peer) = some (c', slot, events)) :
      Reached first owner handles (h ++ [(.opened name peer, slot, events)]) c'
  /-- A connection is closed. -/
  | closed {handles : List String} {h : History} {c c' : Connections} {slot : Slot}
      {events : List Event} (hreach : Reached first owner handles h c) (name : String)
      (hstep : c.step? (.closed name) = some (c', slot, events)) :
      Reached first owner handles (h ++ [(.closed name, slot, events)]) c'

variable {owner : String} {handles : List String} {h : History}

/-! ## Balanced books -/

/-- Whether connections are as their history tells. -/
structure Sound (first : Nat) (h : History) (c : Connections) : Prop where
  slots : c.slots.map Prod.snd = h.live
  holders : (c.slots.map Prod.fst).Nodup
  count : c.count = h.live.length
  balance : (h.live ++ h.closed).Perm h.opened
  numbers : (h.opened.map Slot.number).Pairwise (· < ·)
  below : ∀ slot ∈ h.opened, slot.number < c.next
  room : first + h.opened.length ≤ c.next

lemma sound_new (first : Nat) : Sound first [] (new first) where
  slots := rfl
  holders := List.nodup_nil
  count := rfl
  balance := .nil
  numbers := .nil
  below := by simp [History.opened]
  room := le_rfl

/-- Numbers that are used up elsewhere leave the books in balance. -/
lemma Sound.elsewhere (hc : Sound first h c) (n : Nat) :
    Sound first h { c with next := c.next + n } :=
  { hc with
    below := fun slot hslot => Nat.lt_add_right n (hc.below slot hslot)
    room := hc.room.trans (Nat.le_add_right _ _) }

/-- No slot is opened twice. -/
lemma Sound.nodup_opened (hc : Sound first h c) : h.opened.Nodup :=
  .of_map Slot.number (hc.numbers.imp Nat.ne_of_lt)

/-- A slot with the next number has not been closed. -/
lemma Sound.not_mem_closed (hc : Sound first h c) (hslot : slot.number = c.next) :
    slot ∉ h.closed := fun hclosed =>
  (hc.below slot (hc.balance.subset (List.mem_append_right _ hclosed))).ne hslot

/-- The slots that holders have are open. -/
lemma Sound.mem_live_iff (hc : Sound first h c) :
    slot ∈ h.live ↔ ∃ name, c.slot? name = some slot := by
  simp only [← hc.slots, List.mem_map, slot?, lookup_eq_some_iff_mem hc.holders, Prod.exists,
    exists_eq_right]

/-- A holder that gives its slot up gives up this slot and no other one. -/
lemma Sound.slots_filter (hc : Sound first h c) {name : String} (hslot : c.slot? name = some slot) :
    (c.slots.filter fun l => l.1 != name).map Prod.snd = h.live.erase slot := by
  have hnodup : (c.slots.map Prod.snd).Nodup := hc.slots ▸ hc.nodup_opened.filter _
  have hmem : (name, slot) ∈ c.slots := (lookup_eq_some_iff_mem hc.holders).mp hslot
  rw [map_snd_filter hc.holders hnodup hmem, hc.slots]

/-- Opening a connection leaves the books in balance. -/
lemma Sound.opened (hc : Sound first h c) {name : String} (hfree : c.slot? name = none)
    (peer : SocketAddress) :
    Sound first (h ++ [(.opened name peer, ⟨c.next, peer⟩, events)])
      ⟨c.next + 1, c.count + 1, c.slots ++ [(name, ⟨c.next, peer⟩)]⟩ := by
  have hlive : History.live (h ++ [(.opened name peer, ⟨c.next, peer⟩, events)]) =
      h.live ++ [⟨c.next, peer⟩] := History.live_opened (hc.not_mem_closed rfl)
  have hholder : name ∉ c.slots.map Prod.fst := lookup_eq_none_iff.mp hfree
  constructor
  · rw [hlive, List.map_append, hc.slots]
    rfl
  · rw [List.map_append]
    exact hc.holders.append (List.nodup_singleton name) (List.disjoint_singleton.mpr hholder)
  · rw [hlive, List.length_append, hc.count]
    rfl
  · rw [hlive, History.closed_opened, History.opened_opened, List.append_assoc]
    calc h.live ++ ([(⟨c.next, peer⟩ : Slot)] ++ h.closed)
        List.Perm _ (h.live ++ (h.closed ++ [⟨c.next, peer⟩])) :=
          List.perm_append_comm.append_left _
        _ = (h.live ++ h.closed) ++ [⟨c.next, peer⟩] := (List.append_assoc _ _ _).symm
        List.Perm _ (h.opened ++ [⟨c.next, peer⟩]) := hc.balance.append_right _
  · rw [History.opened_opened, List.map_append]
    refine List.pairwise_append.mpr ⟨hc.numbers, List.pairwise_singleton _ _, ?_⟩
    intro n hn m hm
    obtain ⟨slot, hslot, rfl⟩ := List.mem_map.mp hn
    obtain rfl := List.mem_singleton.mp hm
    exact hc.below slot hslot
  · intro slot hslot
    rw [History.opened_opened] at hslot
    rcases List.mem_append.mp hslot with hold | hnew
    · exact (hc.below slot hold).trans (Nat.lt_succ_self _)
    · obtain rfl := List.mem_singleton.mp hnew
      exact Nat.lt_succ_self _
  · rw [History.opened_opened, List.length_append, ← Nat.add_assoc]
    exact Nat.succ_le_succ hc.room

/-- Closing a connection leaves the books in balance. -/
lemma Sound.closed (hc : Sound first h c) {name : String} (hslot : c.slot? name = some slot) :
    Sound first (h ++ [(.closed name, slot, events)])
      ⟨c.next, c.count - 1, c.slots.filter fun l => l.1 != name⟩ := by
  have hopen := hc.mem_live_iff.mpr ⟨name, hslot⟩
  have hlive : History.live (h ++ [(.closed name, slot, events)]) = h.live.erase slot :=
    History.live_closed hc.nodup_opened
  constructor
  · rw [hlive, hc.slots_filter hslot]
  · exact hc.holders.sublist (List.filter_sublist.map Prod.fst)
  · rw [hlive, List.length_erase_of_mem hopen, hc.count]
  · rw [hlive, History.closed_closed, History.opened_closed]
    -- the slot goes from those that are open to those that have been closed
    calc h.live.erase slot ++ (h.closed ++ [slot])
        _ = (h.live.erase slot ++ h.closed) ++ [slot] := (List.append_assoc _ _ _).symm
        List.Perm _ (slot :: h.live.erase slot ++ h.closed) := List.perm_append_singleton _ _
        List.Perm _ (h.live ++ h.closed) := (List.perm_cons_erase hopen).symm.append_right _
        List.Perm _ h.opened := hc.balance
  · rw [History.opened_closed]
    exact hc.numbers
  · rw [History.opened_closed]
    exact hc.below
  · rw [History.opened_closed]
    exact hc.room

/-- Every step leaves the books in balance. -/
lemma Takes.sound (htakes : Takes c s c' slot events) (hc : Sound first h c) :
    Sound first (h ++ [(s, slot, events)]) c' := by
  cases htakes with
  | opened peer hfree => exact hc.opened hfree peer
  | closed hslot => exact hc.closed hslot

/-- Connections that are reached are as their history tells. -/
lemma sound_of_reached (hreach : Reached first owner handles h c) : Sound first h c := by
  induction hreach with
  | start => exact sound_new first
  | copy _ _ _ ih => exact ih
  | drop _ _ ih => exact ih
  | elsewhere _ n ih => exact ih.elsewhere n
  | opened _ _ _ _ hstep ih => exact (step?_eq_some_iff.mp hstep).sound ih
  | closed _ _ hstep ih => exact (step?_eq_some_iff.mp hstep).sound ih

/-! ## What is published -/

/-- A step publishes the count after it. -/
lemma Takes.published (htakes : Takes c s c' slot events) : events = [.openConnections c'.count] := by
  cases htakes <;> rfl

/-- Whether every step of a history has published how many slots were open after it. -/
def History.Published (h : History) : Prop :=
  ∀ (before : History) (e : Step × Slot × List Event), before ++ [e] <+: h →
    e.2.2 = [.openConnections (History.live (before ++ [e])).length]

/-- One more step publishes how many slots are open then. -/
lemma History.Published.step (hpublished : h.Published) (hc : Sound first h c)
    (htakes : Takes c s c' slot events) : Published (h ++ [(s, slot, events)]) := by
  intro before e hprefix
  rcases List.prefix_concat_iff.mp hprefix with heq | hbefore
  · obtain ⟨rfl, hlast⟩ := List.append_inj' heq rfl
    obtain rfl := List.singleton_inj.mp hlast
    rw [← (htakes.sound hc).count]
    exact htakes.published
  · exact hpublished before e hbefore

lemma published_of_reached (hreach : Reached first owner handles h c) : h.Published := by
  induction hreach with
  | start =>
    intro before e hprefix
    simp at hprefix
  | copy _ _ _ ih => exact ih
  | drop _ _ ih => exact ih
  | elsewhere _ _ ih => exact ih
  | opened hreach _ _ _ hstep ih =>
    exact ih.step (sound_of_reached hreach) (step?_eq_some_iff.mp hstep)
  | closed hreach _ hstep ih =>
    exact ih.step (sound_of_reached hreach) (step?_eq_some_iff.mp hstep)

/-- What is kept about connections after a history. -/
structure Counted (first : Nat) (h : History) (c : Connections) : Prop where
  /-- The holders have the slots that have been opened and not closed since, -/
  slots : c.slots.map Prod.snd = h.live
  /-- and their number is the count. -/
  count : c.count = h.live.length
  /-- Every slot that has been opened is open or has been closed, and this once. -/
  balance : (h.live ++ h.closed).Perm h.opened
  /-- Every opening and closing has published how many slots were open after it. -/
  published : h.Published
  /-- A connection can be opened for every holder without a slot. This publishes the count after it, and
  the number of the slot is larger than all numbers of slots before, open or closed. -/
  opening : ∀ name peer, c.slot? name = none → ∃ (c' : Connections) (slot : Slot),
    c.step? (.opened name peer) = some (c', slot, [.openConnections c'.count]) ∧
      c'.count = c.count + 1 ∧ slot.peer = peer ∧ ∀ other ∈ h.opened, other.number < slot.number
  /-- Every slot that is open has a holder, -/
  held : ∀ slot ∈ h.live, ∃ name, c.slot? name = some slot
  /-- and can be closed. It was counted, and this publishes the count without it. -/
  closing : ∀ name slot, c.slot? name = some slot → slot ∈ h.live ∧ ∃ c' : Connections,
    c.step? (.closed name) = some (c', slot, [.openConnections c'.count]) ∧ c'.count + 1 = c.count
  /-- The numbers of the slots increase from each opening to the next, so that none is used again. -/
  numbers : (h.opened.map Slot.number).Pairwise (· < ·)
  /-- They are all below the next number, and no more slots have been opened than that: as long as the
  next number fits into a word of 64 bits, so do all other numbers and the count. -/
  bounds : (∀ slot ∈ h.opened, slot.number < c.next) ∧ first + h.opened.length ≤ c.next

/-- In whatever order connections are opened and closed, and through whatever handles, the count is the
number of open slots, every step publishes it, and no number is used twice. -/
theorem counted_of_reached (hreach : Reached first owner handles h c) : Counted first h c := by
  have hc := sound_of_reached hreach
  refine ⟨hc.slots, hc.count, hc.balance, published_of_reached hreach, ?_, ?_, ?_, hc.numbers,
    hc.below, hc.room⟩
  · intro name peer hfree
    exact ⟨_, _, step?_eq_some_iff.mpr (.opened peer hfree), rfl, rfl, hc.below⟩
  · exact fun slot hslot => hc.mem_live_iff.mp hslot
  · intro name slot hslot
    have hopen := hc.mem_live_iff.mpr ⟨name, hslot⟩
    have hcounted : 0 < c.count := hc.count ▸ List.length_pos_of_mem hopen
    exact ⟨hopen, _, step?_eq_some_iff.mpr (.closed hslot), Nat.sub_add_cancel hcounted⟩

/-- Where the connections of `twoHandles` come from. -/
def visitor : SocketAddress := ⟨.v4 ⟨127, 0, 0, 1⟩, 40000, 0⟩

/-- Two connections through two handles. The first one is closed and its holder opens another one, after
the first handle is gone and the numbers 3 and 4 have been used up elsewhere. -/
def twoHandles : History :=
  [(.opened "a" visitor, ⟨1, visitor⟩, [.openConnections 1]),
    (.opened "b" visitor, ⟨2, visitor⟩, [.openConnections 2]),
    (.closed "a", ⟨1, visitor⟩, [.openConnections 1]),
    (.opened "a" visitor, ⟨5, visitor⟩, [.openConnections 2])]

theorem counted_of_twoHandles :
    let c : Connections := ⟨6, 2, [("b", ⟨2, visitor⟩), ("a", ⟨5, visitor⟩)]⟩
    Reached 1 "main" ["copy"] twoHandles c ∧ Counted 1 twoHandles c ∧
      twoHandles.live = [⟨2, visitor⟩, ⟨5, visitor⟩] := by
  intro c
  have hmain : "main" ∈ ["main"] := List.mem_singleton_self _
  have hcopy : "copy" ∈ ["copy"] := List.mem_singleton_self _
  have h₁ : Reached 1 "main" ["main"] [(.opened "a" visitor, ⟨1, visitor⟩, [.openConnections 1])]
      ⟨2, 1, [("a", ⟨1, visitor⟩)]⟩ := Reached.start.opened hmain "a" visitor rfl
  have h₂ := (h₁.copy hmain "copy").drop "main"
  have h₃ := h₂.opened hcopy "b" visitor rfl
  have h₄ := (h₃.closed "a" rfl).elsewhere 2
  have hreach : Reached 1 "main" ["copy"] twoHandles c := h₄.opened hcopy "a" visitor rfl
  exact ⟨hreach, counted_of_reached hreach, by decide⟩

end Gateway.Connections
