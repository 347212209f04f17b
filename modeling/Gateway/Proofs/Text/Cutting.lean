import Mathlib
import Gateway.Proofs.Http.Value

/-!
# Pieces of a cut text

A piece of a text that is cut at a separator lies between two separators, where the ends of the text
count as separators (`Text.enclosed_of_mem_split`), and whatever lies between two separators is a piece
(`Text.mem_split_of_enclosed`). A part that lacks the separator lies on one side of each of its
occurrences (`Text.infix_append_cons_iff`), so that a text with known separators can be searched part by
part, and a cut text piece by piece (`Text.infix_iff_exists_mem_split`). A text that is cut at its last
separator is cut there only (`Text.cutLast_eq_some_iff`).
-/

namespace Gateway.Text

section Parts

variable {α : Type} {sep : α} {w xs ys : List α}

/-- A part that lacks a separator lies on one side of it. -/
lemma infix_append_cons_iff (hsep : sep ∉ w) : w <:+: xs ++ sep :: ys ↔ w <:+: xs ∨ w <:+: ys := by
  constructor
  · rintro ⟨front, back, h⟩
    rcases List.append_eq_append_iff.mp h with ⟨rest, rfl, -⟩ | ⟨rest, hfront, hrest⟩
    · exact .inl (List.infix_append front w rest)
    rcases List.cons_eq_append_iff.mp hrest with ⟨rfl, -⟩ | ⟨tail, rfl, rfl⟩
    · rw [List.append_nil] at hfront
      exact .inl (hfront ▸ List.suffix_append front w).isInfix
    -- the separator is not in the part, so it is in front of it
    rcases List.append_eq_append_iff.mp hfront with ⟨mid, -, rfl⟩ | ⟨mid, -, hmid⟩
    · exact absurd (List.mem_append_right mid List.mem_cons_self) hsep
    rcases List.cons_eq_append_iff.mp hmid with ⟨-, rfl⟩ | ⟨mid, -, rfl⟩
    · exact absurd List.mem_cons_self hsep
    · exact .inr (List.infix_append mid w back)
  · rintro (h | h)
    · exact h.trans (List.prefix_append _ _).isInfix
    · exact h.trans ((List.suffix_cons _ _).trans (List.suffix_append _ _)).isInfix

/-- A part with other elements than those in front of a text and behind it lies inside the text. -/
lemma infix_padded_iff {front mid back : List α} (hw : w ≠ []) (hfront : ∀ c ∈ front, c ∉ w)
    (hback : ∀ c ∈ back, c ∉ w) : w <:+: front ++ mid ++ back ↔ w <:+: mid := by
  -- what is in front of a text is taken away element by element
  have hdrop {pad w s : List α} (hw : w ≠ []) (hpad : ∀ c ∈ pad, c ∉ w) :
      w <:+: pad ++ s ↔ w <:+: s := by
    induction pad with
    | nil => exact Iff.rfl
    | cons c pad ih =>
      obtain ⟨hc, hpad⟩ := List.forall_mem_cons.mp hpad
      have hstart : ¬ w <+: c :: (pad ++ s) := by
        intro hprefix
        obtain ⟨d, w, rfl⟩ := List.exists_cons_of_ne_nil hw
        exact hc ((List.cons_prefix_cons.mp hprefix).1 ▸ List.mem_cons_self)
      rw [List.cons_append, List.infix_cons_iff, or_iff_right hstart, ih hpad]
  have hreverse : w.reverse ≠ [] := mt List.reverse_eq_nil_iff.mp hw
  have hmirror : ∀ c ∈ back.reverse, c ∉ w.reverse := by
    intro c hc
    rw [List.mem_reverse]
    exact hback c (List.mem_reverse.mp hc)
  rw [List.append_assoc, hdrop hw hfront, ← List.reverse_infix, List.reverse_append,
    hdrop hreverse hmirror, List.reverse_infix]

/-- The first separator tells where the rest begins. -/
lemma append_cons_inj {before after before' after' : List α} (hbefore : sep ∉ before)
    (hbefore' : sep ∉ before') (h : before ++ sep :: after = before' ++ sep :: after') :
    before = before' ∧ after = after' := by
  rcases List.append_eq_append_iff.mp h with ⟨mid, rfl, hmid⟩ | ⟨mid, rfl, hmid⟩
  · rcases List.cons_eq_append_iff.mp hmid with ⟨rfl, htail⟩ | ⟨tail, rfl, -⟩
    · exact ⟨(List.append_nil before).symm, (List.cons.inj htail).2.symm⟩
    · exact absurd (List.mem_append_right before List.mem_cons_self) hbefore'
  · rcases List.cons_eq_append_iff.mp hmid with ⟨rfl, htail⟩ | ⟨tail, rfl, -⟩
    · exact ⟨List.append_nil before', (List.cons.inj htail).2⟩
    · exact absurd (List.mem_append_right before' List.mem_cons_self) hbefore

/-- The last separator tells where the rest ends. -/
lemma append_cons_inj_of_last {before after before' after' : List α} (hafter : sep ∉ after)
    (hafter' : sep ∉ after') (h : before ++ sep :: after = before' ++ sep :: after') :
    before = before' ∧ after = after' := by
  have hreverse : after.reverse ++ sep :: before.reverse = after'.reverse ++ sep :: before'.reverse := by
    simpa using congrArg List.reverse h
  obtain ⟨hback, hfront⟩ := append_cons_inj (mt List.mem_reverse.mp hafter)
    (mt List.mem_reverse.mp hafter') hreverse
  exact ⟨List.reverse_injective hfront, List.reverse_injective hback⟩

variable [DecidableEq α] {before mid after : List α}

/-- What stands between two separators of a text that has just two of them. -/
lemma eq_of_enclosed_infix (hbefore : sep ∉ before) (hmid : sep ∉ mid) (hafter : sep ∉ after)
    (hsep : sep ∉ w) (h : sep :: w ++ [sep] <:+: before ++ sep :: (mid ++ sep :: after)) : w = mid := by
  obtain ⟨front, back, h⟩ := h
  have hfront : sep ∉ front := by
    have hcount := congrArg (List.count sep) h
    simp only [List.count_append, List.count_cons_self, List.count_nil,
      List.count_eq_zero_of_not_mem hbefore, List.count_eq_zero_of_not_mem hmid,
      List.count_eq_zero_of_not_mem hafter] at hcount
    exact List.count_eq_zero.mp (by omega)
  have hcut : front ++ sep :: (w ++ sep :: back) = before ++ sep :: (mid ++ sep :: after) := by
    rw [← h]
    simp
  obtain ⟨-, hrest⟩ := append_cons_inj hfront hbefore hcut
  exact (append_cons_inj hsep hmid hrest).1

end Parts

section Pieces

variable {α : Type} [DecidableEq α] {sep : α} {piece s : List α}

/-- A piece lies between two separators, where the ends of the text count as separators. -/
lemma enclosed_of_mem_split (h : piece ∈ split sep s) :
    sep ∉ piece ∧ sep :: piece ++ [sep] <:+: sep :: s ++ [sep] := by
  -- by induction on the number of separators, of which the first one is taken away
  induction hn : s.count sep generalizing s with
  | zero =>
    rw [split_of_not_mem (List.count_eq_zero.mp hn), List.mem_singleton] at h
    obtain rfl := h
    exact ⟨List.count_eq_zero.mp hn, List.infix_rfl⟩
  | succ n ih =>
    have hsep : sep ∈ s := List.count_pos_iff.mp (hn ▸ n.succ_pos)
    obtain ⟨before, after, rfl, hbefore⟩ := List.eq_append_cons_of_mem hsep
    rw [split_append_cons, split_of_not_mem hbefore, List.mem_append, List.mem_singleton] at h
    rcases h with rfl | h
    · exact ⟨hbefore, [], after ++ [sep], by simp⟩
    have hafter : after.count sep = n := by
      rw [List.count_append, List.count_eq_zero.mpr hbefore, List.count_cons_self] at hn
      omega
    obtain ⟨hpiece, hinfix⟩ := ih h hafter
    have hsuffix : sep :: after ++ [sep] <:+ sep :: (before ++ sep :: after) ++ [sep] :=
      ⟨sep :: before, by simp⟩
    exact ⟨hpiece, hinfix.trans hsuffix.isInfix⟩

/-- What lies between two separators is a piece. -/
lemma mem_split_of_enclosed (hpiece : sep ∉ piece) (h : sep :: piece ++ [sep] <:+: s) :
    piece ∈ split sep s := by
  obtain ⟨front, back, rfl⟩ := h
  have hcut : front ++ (sep :: piece ++ [sep]) ++ back = front ++ sep :: (piece ++ sep :: back) := by
    simp
  rw [hcut, split_append_cons, split_append_cons, split_of_not_mem hpiece]
  simp

/-- A part that lacks the separator lies in one piece. -/
lemma infix_iff_exists_mem_split {w : List α} (hsep : sep ∉ w) :
    w <:+: s ↔ ∃ piece ∈ split sep s, w <:+: piece := by
  induction hn : s.count sep generalizing s with
  | zero =>
    rw [split_of_not_mem (List.count_eq_zero.mp hn)]
    simp
  | succ n ih =>
    have hmem : sep ∈ s := List.count_pos_iff.mp (hn ▸ n.succ_pos)
    obtain ⟨before, after, rfl, hbefore⟩ := List.eq_append_cons_of_mem hmem
    have hafter : after.count sep = n := by
      rw [List.count_append, List.count_eq_zero.mpr hbefore, List.count_cons_self] at hn
      omega
    rw [infix_append_cons_iff hsep, ih hafter, split_append_cons, split_of_not_mem hbefore]
    simp

/-- If different elements stay different, the text is cut at the same places. -/
lemma split_map {β : Type} [DecidableEq β] {f : α → β} (hf : Function.Injective f) :
    split (f sep) (s.map f) = (split sep s).map (List.map f) := by
  induction s with
  | nil => rfl
  | cons c r ih =>
    simp only [List.map_cons, split, ih, hf.eq_iff]
    split
    · rfl
    · rcases split sep r with _ | ⟨p, ps⟩ <;> rfl

/-! ### The last separator -/

lemma cutLast_eq_none_iff : cutLast sep s = none ↔ sep ∉ s := by
  induction s with
  | nil => simp [cutLast]
  | cons c r ih =>
    rw [cutLast, List.mem_cons, not_or, ← ih]
    rcases cutLast sep r with _ | p
    · simp [eq_comm]
    · simp

/-- A text is cut at the last separator. -/
lemma cutLast_eq_some_iff {before after : List α} :
    cutLast sep s = some (before, after) ↔ s = before ++ sep :: after ∧ sep ∉ after := by
  have hcut {s before after : List α} (h : cutLast sep s = some (before, after)) :
      s = before ++ sep :: after ∧ sep ∉ after := by
    induction s generalizing before with
    | nil => cases h
    | cons c r ih =>
      rw [cutLast] at h
      rcases hr : cutLast sep r with _ | ⟨front, back⟩
      · rw [hr] at h
        obtain ⟨rfl, hpair⟩ := Option.ite_none_right_eq_some.mp h
        obtain ⟨rfl, rfl⟩ := Prod.mk.inj (Option.some.inj hpair)
        exact ⟨rfl, cutLast_eq_none_iff.mp hr⟩
      · rw [hr] at h
        obtain ⟨rfl, rfl⟩ := Prod.mk.inj (Option.some.inj h)
        obtain ⟨rfl, hafter⟩ := ih hr
        exact ⟨rfl, hafter⟩
  refine ⟨hcut, ?_⟩
  rintro ⟨rfl, hafter⟩
  rcases h : cutLast sep (before ++ sep :: after) with _ | ⟨front, back⟩
  · exact absurd (by simp) (cutLast_eq_none_iff.mp h)
  · obtain ⟨heq, hback⟩ := hcut h
    obtain ⟨rfl, rfl⟩ := append_cons_inj_of_last hafter hback heq
    rfl

end Pieces

section Joining

variable {α : Type} {sep gap : α}

lemma join_cons_cons (sep : α) (p q : List α) (r : List (List α)) :
    join [sep] (p :: q :: r) = p ++ sep :: join [sep] (q :: r) := by
  simp [join]

lemma join_cons (sep : α) (p : List α) (ls : List (List α)) :
    join [sep] (p :: ls) = p ++ ls.flatMap (sep :: ·) := by
  induction ls generalizing p with
  | nil => simp [join]
  | cons q r ih => rw [join_cons_cons, ih, List.flatMap_cons, List.cons_append]

/-- A separator with a mark behind it is not in a part without such a place: it is the separator that
ends the part, or it comes later. -/
lemma cut_at_gap {p t v w : List α} (hgap : gap ≠ sep) (hp : ¬ [sep, gap] <:+: p)
    (h : p ++ sep :: t = v ++ sep :: gap :: w) :
    (v = p ∧ t = gap :: w) ∨ ∃ mid, v = p ++ sep :: mid ∧ t = mid ++ sep :: gap :: w := by
  rcases List.append_eq_append_iff.mp h with ⟨mid, rfl, hmid⟩ | ⟨mid, rfl, hmid⟩
  · rcases List.cons_eq_append_iff.mp hmid with ⟨rfl, htail⟩ | ⟨mid, rfl, htail⟩
    · exact .inl ⟨List.append_nil p, (List.cons.inj htail).2.symm⟩
    · exact .inr ⟨mid, rfl, htail⟩
  · rcases List.cons_eq_append_iff.mp hmid with ⟨rfl, htail⟩ | ⟨mid, rfl, htail⟩
    · exact .inl ⟨(List.append_nil v).symm, (List.cons.inj htail).2⟩
    · rcases List.cons_eq_append_iff.mp htail with ⟨-, hsep⟩ | ⟨mid, rfl, -⟩
      · exact absurd (List.cons.inj hsep).1.symm hgap
      · exact absurd ⟨v, mid, by simp⟩ hp

/-- A joined list whose parts have no such place is cut into two joined lists by a separator with a mark
behind it. -/
lemma exists_join_of_gap {ls : List (List α)} {v w : List α} (hgap : gap ≠ sep)
    (hls : ∀ p ∈ ls, ¬ [sep, gap] <:+: p) (h : join [sep] ls = v ++ sep :: gap :: w) :
    ∃ ys zs, ys ≠ [] ∧ zs ≠ [] ∧ ls = ys ++ zs ∧ v = join [sep] ys ∧
      gap :: w = join [sep] zs := by
  induction ls generalizing v with
  | nil => simp [join] at h
  | cons p ls ih =>
    obtain ⟨hp, hls⟩ := List.forall_mem_cons.mp hls
    rcases ls with _ | ⟨q, r⟩
    · exact absurd ⟨v, w, by simpa [join] using h.symm⟩ hp
    rw [join_cons_cons] at h
    rcases cut_at_gap hgap hp h with ⟨rfl, hrest⟩ | ⟨mid, rfl, hrest⟩
    · exact ⟨[v], q :: r, List.cons_ne_nil _ _, List.cons_ne_nil _ _, rfl, rfl, hrest.symm⟩
    · obtain ⟨ys, zs, hys, hzs, hcut, rfl, hw⟩ := ih hls hrest
      obtain ⟨y, ys, rfl⟩ := List.exists_cons_of_ne_nil hys
      exact ⟨p :: y :: ys, zs, List.cons_ne_nil _ _, hzs, congrArg (p :: ·) hcut,
        (join_cons_cons sep p y ys).symm, hw⟩

end Joining

section Trimming

variable {α : Type}

/-- Trimming takes away what is trimmed, at both ends and nothing else. -/
lemma exists_trimBy (p : α → Bool) (s : List α) :
    ∃ left right, s = left ++ trimBy p s ++ right ∧ ∀ c ∈ left ++ right, p c = true := by
  refine ⟨s.takeWhile p, ((s.dropWhile p).reverse.takeWhile p).reverse, ?_, fun c hc => ?_⟩
  · rw [trimBy, List.append_assoc, ← List.reverse_append, List.takeWhile_append_dropWhile,
      List.reverse_reverse, List.takeWhile_append_dropWhile]
  · rcases List.mem_append.mp hc with hc | hc
    · exact List.mem_takeWhile_imp hc
    · exact List.mem_takeWhile_imp (List.mem_reverse.mp hc)

variable [DecidableEq α]

lemma afterStart_eq_some_iff {start s rest : List α} :
    afterStart start s = some rest ↔ s = start ++ rest := by
  induction start generalizing s with
  | nil => simp [afterStart]
  | cons a start ih =>
    rcases s with _ | ⟨c, r⟩
    · simp [afterStart]
    · rw [afterStart, List.cons_append, List.cons.injEq]
      split
      · next h => simp [ih, h]
      · next h => simp [Ne.symm h]

end Trimming

end Gateway.Text
