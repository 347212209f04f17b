import Mathlib
import Gateway.Json.Value
import Gateway.Proofs.Json.Token

/-!
# The grammar of JSON values

A value has one list of tokens only, with commas between its items and nothing behind the last of them,
and a text is a way to write the value if it spells these tokens. The machine with the stack reads from a
text exactly the value that the text is a way to write (`read?_eq_some_iff`). What it does with a value does
not depend on the frames around it: it reads the tokens of the value and puts the value into the innermost
frame, in both directions (`ofTokensFrom?_tokens`, `beginsWithValue`).
-/

namespace Gateway.Json

mutual

/-- The tokens of a value. -/
def tokens : Json → List Token
  | .null => [.null]
  | .bool b => [.bool b]
  | .nat n => [.nat n]
  | .otherNumber => [.otherNumber]
  | .text s => [.text s]
  | .array [] => [.openBracket, .closeBracket]
  | .array (v :: vs) => .openBracket :: (tokens v ++ moreItems vs)
  | .object [] => [.openBrace, .closeBrace]
  | .object ((name, v) :: ms) =>
    .openBrace :: .text name :: .colon :: (tokens v ++ moreMembers ms)

/-- The tokens of an array behind one of its items. -/
def moreItems : List Json → List Token
  | [] => [.closeBracket]
  | v :: vs => .comma :: (tokens v ++ moreItems vs)

/-- The tokens of an object behind one of its members. -/
def moreMembers : List (Option String × Json) → List Token
  | [] => [.closeBrace]
  | (name, v) :: ms => .comma :: .text name :: .colon :: (tokens v ++ moreMembers ms)

end

/-- Whether a text is a way to write a value. -/
def Writes (s : List Char) (v : Json) : Prop := Spells v.tokens s

section Reader

variable {fs : List Frame} {t : Token} {ts rest : List Token} {u v w : Json}

/-- A value begins with a token that does not end an array. -/
lemma exists_tokens_eq_cons (v : Json) : ∃ t ts, v.tokens = t :: ts ∧ t ≠ .closeBracket := by
  unfold tokens
  split
  all_goals exact ⟨_, _, rfl, nofun⟩

lemma ofTokensFrom?_cons (place : Place) : ofTokensFrom? (.open fs place) (t :: ts) =
    (advance? (.open fs place) t).bind fun p => ofTokensFrom? p ts := rfl

/-- Where an array may end, a value is read as where it may not. -/
lemma ofTokensFrom?_firstItem (h : t ≠ .closeBracket) :
    ofTokensFrom? (.open fs .firstItem) (t :: ts) = ofTokensFrom? (.open fs .value) (t :: ts) := by
  have hadvance : advance? (.open fs .firstItem) t = advance? (.open fs .value) t := if_neg h
  rw [ofTokensFrom?_cons, ofTokensFrom?_cons, hadvance]

/-- Where an object may end, a name is read as where it may not. -/
lemma ofTokensFrom?_firstName (h : t ≠ .closeBrace) :
    ofTokensFrom? (.open fs .firstName) (t :: ts) = ofTokensFrom? (.open fs .name) (t :: ts) := by
  have hadvance : advance? (.open fs .firstName) t = advance? (.open fs .name) t := if_neg h
  rw [ofTokensFrom?_cons, ofTokensFrom?_cons, hadvance]

/-! ## Values are read -/

mutual

/-- The machine reads the tokens of a value where a value is expected, and puts the value into the
innermost frame. -/
lemma ofTokensFrom?_tokens : ∀ (v : Json) (fs : List Frame) (rest : List Token),
    ofTokensFrom? (.open fs .value) (v.tokens ++ rest) = ofTokensFrom? (settle v fs) rest
  | .null, _, _ => rfl
  | .bool _, _, _ => rfl
  | .nat _, _, _ => rfl
  | .otherNumber, _, _ => rfl
  | .text _, _, _ => rfl
  | .array [], _, _ => rfl
  | .array (v :: vs), fs, rest => by
    obtain ⟨t, ts, hv, ht⟩ := exists_tokens_eq_cons v
    have hitems := ofTokensFrom?_moreItems vs [v] fs rest
    have hitem := ofTokensFrom?_tokens v (.array [] :: fs) (moreItems vs ++ rest)
    rw [hv, List.cons_append, ← ofTokensFrom?_firstItem ht, ← List.cons_append, ← hv] at hitem
    rw [tokens, List.cons_append, List.append_assoc]
    exact hitem.trans hitems
  | .object [], _, _ => rfl
  | .object ((name, v) :: ms), fs, rest => by
    have hmembers := ofTokensFrom?_moreMembers ms [(name, v)] fs rest
    have hmember := ofTokensFrom?_tokens v (.object [] name :: fs) (moreMembers ms ++ rest)
    rw [tokens, List.cons_append, List.cons_append, List.cons_append, List.append_assoc]
    exact hmember.trans hmembers

/-- The machine reads the other items of an array and closes it. -/
lemma ofTokensFrom?_moreItems : ∀ (vs items : List Json) (fs : List Frame) (rest : List Token),
    ofTokensFrom? (.open (.array items :: fs) .afterItem) (moreItems vs ++ rest) =
      ofTokensFrom? (settle (.array (items ++ vs)) fs) rest
  | [], items, fs, rest => by
    rw [List.append_nil]
    rfl
  | v :: vs, items, fs, rest => by
    have hitems := ofTokensFrom?_moreItems vs (items ++ [v]) fs rest
    have hitem := ofTokensFrom?_tokens v (.array items :: fs) (moreItems vs ++ rest)
    rw [List.append_assoc, List.singleton_append] at hitems
    rw [moreItems, List.cons_append, List.append_assoc]
    exact hitem.trans hitems

/-- The machine reads the other members of an object and closes it. -/
lemma ofTokensFrom?_moreMembers : ∀ (ms members : List (Option String × Json)) (fs : List Frame)
    (rest : List Token),
    ofTokensFrom? (.open (.object members none :: fs) .afterItem) (moreMembers ms ++ rest) =
      ofTokensFrom? (settle (.object (members ++ ms)) fs) rest
  | [], members, fs, rest => by
    rw [List.append_nil]
    rfl
  | (name, v) :: ms, members, fs, rest => by
    have hmembers := ofTokensFrom?_moreMembers ms (members ++ [(name, v)]) fs rest
    have hmember := ofTokensFrom?_tokens v (.object members name :: fs) (moreMembers ms ++ rest)
    rw [List.append_assoc, List.singleton_append] at hmembers
    rw [moreMembers, List.cons_append, List.cons_append, List.cons_append, List.append_assoc]
    exact hmember.trans hmembers

end

/-! ## What is read is a value -/

/-- Whether a list of tokens begins with a value, if it is read where a value is expected: the value is put
into the innermost frame, and the rest is read from there. -/
def BeginsWithValue (ts : List Token) : Prop :=
  ∀ fs u, ofTokensFrom? (.open fs .value) ts = some u →
    ∃ v rest, ts = v.tokens ++ rest ∧ ofTokensFrom? (settle v fs) rest = some u

/-- Where the name of a member is expected, a name and a colon stand before its value. -/
lemma exists_of_name {members : List (Option String × Json)} {old : Option String}
    (h : ofTokensFrom? (.open (.object members old :: fs) .name) ts = some u) :
    ∃ name rest, ts = .text name :: .colon :: rest ∧
      ofTokensFrom? (.open (.object members name :: fs) .value) rest = some u := by
  rcases ts with _ | ⟨t, ts⟩
  · cases h
  cases t with
  | text name =>
    rcases ts with _ | ⟨t, ts⟩
    · cases h
    by_cases hcolon : t = .colon
    · subst hcolon
      exact ⟨name, ts, rfl, h⟩
    · have hnone : advance? (.open (.object members name :: fs) .colon) t = none := if_neg hcolon
      change ofTokensFrom? (.open (.object members name :: fs) .colon) (t :: ts) = some u at h
      rw [ofTokensFrom?_cons, hnone] at h
      cases h
  | _ => cases h

section Frames

variable {n : ℕ}

/-- Behind an item of an array stand its other items and its end, if all shorter lists of tokens begin with
a value. -/
lemma exists_of_items (hvalue : ∀ ts : List Token, ts.length < n → BeginsWithValue ts)
    {items : List Json} (hlength : ts.length ≤ n)
    (h : ofTokensFrom? (.open (.array items :: fs) .afterItem) ts = some u) :
    ∃ vs rest, ts = moreItems vs ++ rest ∧
      ofTokensFrom? (settle (.array (items ++ vs)) fs) rest = some u := by
  induction hk : ts.length using Nat.strongRecOn generalizing ts items with
  | ind k ih =>
    rcases ts with _ | ⟨t, ts⟩
    · cases h
    rw [List.length_cons] at hlength hk
    cases t with
    | comma =>
      obtain ⟨v, rest, rfl, hrest⟩ := hvalue ts (by omega) _ _ h
      rw [List.length_append] at hlength hk
      obtain ⟨vs, rest, rfl, hvs⟩ := ih rest.length (by omega) (by omega) hrest rfl
      refine ⟨v :: vs, rest, ?_, ?_⟩
      · rw [moreItems, List.cons_append, List.append_assoc]
      · rwa [List.append_assoc] at hvs
    | closeBracket => exact ⟨[], ts, rfl, by rwa [List.append_nil]⟩
    | _ => cases h

/-- Behind a member of an object stand its other members and its end, if all shorter lists of tokens begin
with a value. -/
lemma exists_of_members (hvalue : ∀ ts : List Token, ts.length < n → BeginsWithValue ts)
    {members : List (Option String × Json)} (hlength : ts.length ≤ n)
    (h : ofTokensFrom? (.open (.object members none :: fs) .afterItem) ts = some u) :
    ∃ ms rest, ts = moreMembers ms ++ rest ∧
      ofTokensFrom? (settle (.object (members ++ ms)) fs) rest = some u := by
  induction hk : ts.length using Nat.strongRecOn generalizing ts members with
  | ind k ih =>
    rcases ts with _ | ⟨t, ts⟩
    · cases h
    rw [List.length_cons] at hlength hk
    cases t with
    | comma =>
      obtain ⟨name, ts, rfl, hname⟩ := exists_of_name h
      rw [List.length_cons, List.length_cons] at hlength hk
      obtain ⟨v, rest, rfl, hrest⟩ := hvalue ts (by omega) _ _ hname
      rw [List.length_append] at hlength hk
      obtain ⟨ms, rest, rfl, hms⟩ := ih rest.length (by omega) (by omega) hrest rfl
      refine ⟨(name, v) :: ms, rest, ?_, ?_⟩
      · rw [moreMembers, List.cons_append, List.cons_append, List.cons_append, List.append_assoc]
      · rwa [List.append_assoc] at hms
    | closeBrace => exact ⟨[], ts, rfl, by rwa [List.append_nil]⟩
    | _ => cases h

end Frames

/-- Every list of tokens that is read where a value is expected begins with a value. -/
lemma beginsWithValue (ts : List Token) : BeginsWithValue ts := by
  induction hn : ts.length using Nat.strongRecOn generalizing ts with
  | ind n ih =>
    have hvalue : ∀ ts : List Token, ts.length < n → BeginsWithValue ts := fun ts hlt =>
      ih ts.length hlt ts rfl
    intro fs u h
    rcases ts with _ | ⟨t, ts⟩
    · cases h
    rw [List.length_cons] at hn
    cases t with
    | null => exact ⟨.null, ts, rfl, h⟩
    | bool b => exact ⟨.bool b, ts, rfl, h⟩
    | nat k => exact ⟨.nat k, ts, rfl, h⟩
    | otherNumber => exact ⟨.otherNumber, ts, rfl, h⟩
    | text s => exact ⟨.text s, ts, rfl, h⟩
    | openBracket =>
      change ofTokensFrom? (.open (.array [] :: fs) .firstItem) ts = some u at h
      rcases ts with _ | ⟨t, ts⟩
      · cases h
      by_cases hclose : t = .closeBracket
      · subst hclose
        exact ⟨.array [], ts, rfl, h⟩
      rw [ofTokensFrom?_firstItem hclose] at h
      obtain ⟨v, rest, hts, hrest⟩ := hvalue _ (by omega) _ _ h
      rw [hts, List.length_append] at hn
      obtain ⟨vs, rest, rfl, hvs⟩ := exists_of_items hvalue (by omega) hrest
      refine ⟨.array (v :: vs), rest, ?_, hvs⟩
      rw [hts, tokens, List.cons_append, List.append_assoc]
    | openBrace =>
      change ofTokensFrom? (.open (.object [] none :: fs) .firstName) ts = some u at h
      rcases ts with _ | ⟨t, ts⟩
      · cases h
      by_cases hclose : t = .closeBrace
      · subst hclose
        exact ⟨.object [], ts, rfl, h⟩
      rw [ofTokensFrom?_firstName hclose] at h
      obtain ⟨name, ts', hts, hname⟩ := exists_of_name h
      rw [hts] at hn
      rw [List.length_cons, List.length_cons] at hn
      obtain ⟨v, rest, rfl, hrest⟩ := hvalue ts' (by omega) _ _ hname
      rw [List.length_append] at hn
      obtain ⟨ms, rest, rfl, hms⟩ := exists_of_members hvalue (by omega) hrest
      refine ⟨.object ((name, v) :: ms), rest, ?_, hms⟩
      rw [hts, tokens, List.cons_append, List.cons_append, List.cons_append, List.append_assoc]
    | _ => cases h

/-! ## Texts -/

/-- The machine reads from a text exactly the value that the text is a way to write. -/
theorem read?_eq_some_iff {s : List Char} : read? s = some v ↔ Writes s v := by
  simp only [read?, Option.bind_eq_some_iff, tokens?_eq_some_iff]
  constructor
  · rintro ⟨ts, hts, h⟩
    obtain ⟨w, rest, rfl, hw⟩ := beginsWithValue ts [] v h
    -- a whole value is read only at the end
    change ofTokensFrom? (.whole w) rest = some v at hw
    rcases rest with _ | ⟨t, rest⟩
    · cases hw
      rwa [List.append_nil] at hts
    · cases hw
  · intro h
    have htokens := ofTokensFrom?_tokens v [] []
    rw [List.append_nil] at htokens
    exact ⟨v.tokens, h, htokens⟩

/-- A text is a way to write one value at most. -/
lemma Writes.unique {s : List Char} (hv : Writes s v) (hw : Writes s w) : v = w :=
  Option.some.inj ((read?_eq_some_iff.mpr hv).symm.trans (read?_eq_some_iff.mpr hw))

end Reader

end Gateway.Json
