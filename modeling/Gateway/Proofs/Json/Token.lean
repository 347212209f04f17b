import Mathlib
import Gateway.Proofs.Json.Numeral

/-!
# The grammar of JSON tokens

Which texts spell which tokens, said without the machine that reads them: a text is blanks, marks, words,
numerals and strings in any order, where a word or numeral ends before the first character that could
belong to it. The machine reads the tokens of a text exactly if the text spells them
(`tokens?_eq_some_iff`). Each mode of the machine has a meaning, which tokens the rest of a text spells in
that mode (`Mode.Reads`), and a step of the machine keeps it.
-/

namespace Gateway.Json

/-! ## Marks, words and strings -/

/-- The character of a mark. -/
def Token.mark? : Token → Option Char
  | .openBrace => some '\x7b'
  | .closeBrace => some '\x7d'
  | .openBracket => some '['
  | .closeBracket => some ']'
  | .comma => some ','
  | .colon => some ':'
  | _ => none

/-- The letters of a word. -/
def Token.letters? : Token → Option (List Char)
  | .null => some ['n', 'u', 'l', 'l']
  | .bool true => some ['t', 'r', 'u', 'e']
  | .bool false => some ['f', 'a', 'l', 's', 'e']
  | _ => none

/-- What may stand between the quotes of a string, with the units that it stands for: a character that is
no quote, backslash or control character stands for itself, and the others are written as escapes. -/
inductive Inside : List Char → List ℕ → Prop
  | nil : Inside [] []
  | plain {c : Char} {w : List Char} {us : List ℕ} (hquote : c ≠ '"') (hslash : c ≠ '\\')
      (hcontrol : 0x20 ≤ c.toNat) (h : Inside w us) : Inside (c :: w) (c.toNat :: us)
  | escape {c : Char} {n : ℕ} {w : List Char} {us : List ℕ} (hc : escapeUnit? c = some n)
      (h : Inside w us) : Inside ('\\' :: c :: w) (n :: us)
  | unicode {ds w : List Char} {n : ℕ} {us : List ℕ} (hlength : ds.length = 4)
      (hn : Text.valueFrom? 16 0 ds = some n) (h : Inside w us) :
      Inside ('\\' :: 'u' :: (ds ++ w)) (n :: us)

/-- The token of a string with given units. -/
def Token.ofUnits (us : List ℕ) : Token := .text ((ofUnits? us).map String.ofList)

/-- Whether a text spells a list of tokens. -/
inductive Spells : List Token → List Char → Prop
  | nil : Spells [] []
  | blank {c : Char} {ts : List Token} {s : List Char} (hc : isBlank c = true) (h : Spells ts s) :
      Spells ts (c :: s)
  | mark {t : Token} {c : Char} {ts : List Token} {s : List Char} (ht : t.mark? = some c)
      (h : Spells ts s) : Spells (t :: ts) (c :: s)
  | word {t : Token} {w : List Char} {ts : List Token} {s : List Char} (ht : t.letters? = some w)
      (hend : Ends Char.isAlpha s) (h : Spells ts s) : Spells (t :: ts) (w ++ s)
  | numeral {t : Token} {w : List Char} {ts : List Token} {s : List Char} (ht : Numeral t w)
      (hend : Ends isNumeralChar s) (h : Spells ts s) : Spells (t :: ts) (w ++ s)
  | text {us : List ℕ} {w : List Char} {ts : List Token} {s : List Char} (hw : Inside w us)
      (h : Spells ts s) : Spells (.ofUnits us :: ts) ('"' :: (w ++ '"' :: s))

/-! ## What a mode reads -/

/-- The rest of a text ends the token of a run of characters, of which some have been seen, and then
spells the other tokens. -/
def ReadsRun (p : Char → Bool) (token? : List Char → Option Token) (seen s : List Char)
    (ts : List Token) : Prop :=
  ∃ w r t ts', s = w ++ r ∧ ts = t :: ts' ∧ (∀ c ∈ w, p c = true) ∧ Ends p r ∧
    token? (seen ++ w) = some t ∧ Spells ts' r

/-- The rest of a text ends a string, of which some units have been read, and then spells the other
tokens. -/
def ReadsText (units : List ℕ) (inside : List Char → List ℕ → Prop) (s : List Char)
    (ts : List Token) : Prop :=
  ∃ w us r ts', s = w ++ '"' :: r ∧ ts = .ofUnits (units ++ us) :: ts' ∧ inside w us ∧ Spells ts' r

/-- What may stand in a string behind something that stands for a given unit, if it stands for one. -/
def InsideUnit (unit? : Option ℕ) (w : List Char) (us : List ℕ) : Prop :=
  ∃ n us', unit? = some n ∧ us = n :: us' ∧ Inside w us'

/-- The rest of an escape of four digits and what may stand behind it in a string. -/
def InsideDigits (digits unit : ℕ) (v : List Char) (us : List ℕ) : Prop :=
  ∃ ds w n us', v = ds ++ w ∧ us = n :: us' ∧ ds ≠ [] ∧ digits + ds.length = 4 ∧
    Text.valueFrom? 16 unit ds = some n ∧ Inside w us'

/-- Which tokens the rest of a text spells in a mode of the machine. -/
def Mode.Reads : Mode → List Char → List Token → Prop
  | .between, s, ts => Spells ts s
  | .numeral seen, s, ts => ReadsRun isNumeralChar numeral? seen s ts
  | .word seen, s, ts => ReadsRun Char.isAlpha word? seen s ts
  | .text units, s, ts => ReadsText units Inside s ts
  | .escape units, s, ts => ReadsText units (fun w us => Inside ('\\' :: w) us) s ts
  | .unicode units digits unit, s, ts => ReadsText units (InsideDigits digits unit) s ts

section Modes

variable {p : Char → Bool} {token? : List Char → Option Token} {seen s w : List Char} {c : Char}
  {t : Token} {ts : List Token} {units us : List ℕ}

lemma readsRun_cons (hc : p c = true) :
    ReadsRun p token? seen (c :: s) ts ↔ ReadsRun p token? (seen ++ [c]) s ts := by
  constructor
  · rintro ⟨w, r, t, ts', hs, rfl, hw, hend, ht, h⟩
    cases w with
    | nil =>
      have hfalse : p c = false := hend c (by rw [← List.nil_append r, ← hs]; rfl)
      rw [hc] at hfalse
      cases hfalse
    | cons d w =>
      obtain ⟨rfl, rfl⟩ := List.cons.inj hs
      refine ⟨w, r, t, ts', rfl, rfl, (List.forall_mem_cons.mp hw).2, hend, ?_, h⟩
      rwa [List.append_assoc]
  · rintro ⟨w, r, t, ts', rfl, rfl, hw, hend, ht, h⟩
    rw [List.append_assoc] at ht
    exact ⟨c :: w, r, t, ts', rfl, rfl, List.forall_mem_cons.mpr ⟨hc, hw⟩, hend, ht, h⟩

lemma readsRun_of_ends (hend : Ends p s) :
    ReadsRun p token? seen s ts ↔ ∃ t ts', ts = t :: ts' ∧ token? seen = some t ∧ Spells ts' s := by
  constructor
  · rintro ⟨w, r, t, ts', rfl, rfl, hw, -, ht, h⟩
    cases w with
    | nil =>
      rw [List.append_nil] at ht
      exact ⟨t, ts', rfl, ht, h⟩
    | cons d w =>
      have htrue := hw d List.mem_cons_self
      rw [hend d rfl] at htrue
      cases htrue
  · rintro ⟨t, ts', rfl, ht, h⟩
    refine ⟨[], s, t, ts', rfl, rfl, List.forall_mem_nil _, hend, ?_, h⟩
    rwa [List.append_nil]

lemma word?_eq_some_iff : word? w = some t ↔ t.letters? = some w := by
  constructor
  · intro h
    unfold word? at h
    split_ifs at h with hnull htrue hfalse
    · rw [← Option.some.inj h, hnull]
      rfl
    · rw [← Option.some.inj h, htrue]
      rfl
    · rw [← Option.some.inj h, hfalse]
      rfl
  · intro h
    unfold Token.letters? at h
    split at h
    all_goals cases h
    all_goals decide

/-- The machine begins a word at its first letter. -/
lemma Token.begin?_of_letters? (h : t.letters? = some w) :
    ∃ c v, w = c :: v ∧ begin? c = some ([], .word [c]) ∧ ∀ d ∈ v, d.isAlpha = true := by
  unfold letters? at h
  split at h <;> cases h
  all_goals exact ⟨_, _, rfl, rfl, List.all_eq_true.mp rfl⟩

/-- The machine completes a mark at its character. -/
lemma Token.begin?_of_mark? (h : t.mark? = some c) : begin? c = some ([t], .between) := by
  cases t <;> cases h <;> rfl

/-- A character that is no blank, mark or quote begins a numeral or a word. -/
lemma begin?_of_ne (hblank : ¬ isBlank c = true) (hmark : ∀ t : Token, t.mark? ≠ some c)
    (hquote : c ≠ '"') : begin? c =
      if isNumeralChar c && c != 'e' && c != 'E' then some ([], .numeral [c])
      else if c.isAlpha then some ([], .word [c]) else none := by
  have hne (t : Token) {d : Char} (hd : t.mark? = some d) : c ≠ d := by
    rintro rfl
    exact hmark t hd
  rw [begin?, if_neg hblank, if_neg (hne .openBrace rfl), if_neg (hne .closeBrace rfl),
    if_neg (hne .openBracket rfl), if_neg (hne .closeBracket rfl), if_neg (hne .comma rfl),
    if_neg (hne .colon rfl), if_neg hquote]

lemma spells_nil_iff : Spells ts [] ↔ ts = [] := by
  constructor
  · intro h
    generalize hs : [] = s at h
    cases h with
    | nil => rfl
    | blank hc h => cases hs
    | mark ht h => cases hs
    | text hw h => cases hs
    | word ht hend h =>
      obtain ⟨c, v, rfl, -⟩ := Token.begin?_of_letters? ht
      cases hs
    | numeral ht hend h =>
      obtain ⟨c, v, rfl, -⟩ := ht.begin?
      cases hs
  · rintro rfl
    exact .nil

/-- What a text spells, by its first character. -/
lemma spells_cons_iff : Spells ts (c :: s) ↔
    ∃ done m rest, begin? c = some (done, m) ∧ m.Reads s rest ∧ done ++ rest = ts := by
  constructor
  · intro h
    generalize hs : c :: s = u at h
    cases h with
    | nil => cases hs
    | blank hc h =>
      cases hs
      exact ⟨[], .between, ts, by rw [begin?, if_pos hc], h, rfl⟩
    | @mark t d ts s ht h =>
      cases hs
      exact ⟨[t], .between, ts, Token.begin?_of_mark? ht, h, rfl⟩
    | @word t w ts r ht hend h =>
      obtain ⟨d, v, rfl, hbegin, hv⟩ := Token.begin?_of_letters? ht
      cases hs
      exact ⟨[], .word [c], t :: ts, hbegin,
        ⟨v, r, t, ts, rfl, rfl, hv, hend, word?_eq_some_iff.mpr ht, h⟩, rfl⟩
    | @numeral t w ts r ht hend h =>
      obtain ⟨d, v, rfl, hbegin⟩ := ht.begin?
      cases hs
      have hv := (List.forall_mem_cons.mp ht.isNumeralChar).2
      exact ⟨[], .numeral [c], t :: ts, hbegin,
        ⟨v, r, t, ts, rfl, rfl, hv, hend, numeral?_eq_some_iff.mpr ht, h⟩, rfl⟩
    | @text us w ts r hw h =>
      cases hs
      exact ⟨[], .text [], _, rfl, ⟨w, us, r, ts, rfl, rfl, hw, h⟩, rfl⟩
  · rintro ⟨done, m, rest, hbegin, hreads, rfl⟩
    by_cases hblank : isBlank c = true
    · rw [begin?, if_pos hblank] at hbegin
      cases hbegin
      exact .blank hblank hreads
    by_cases hmark : ∃ t : Token, t.mark? = some c
    · obtain ⟨t, ht⟩ := hmark
      rw [Token.begin?_of_mark? ht] at hbegin
      cases hbegin
      exact .mark ht hreads
    by_cases hquote : c = '"'
    · subst hquote
      cases hbegin
      obtain ⟨w, us, r, ts', rfl, rfl, hw, h⟩ := hreads
      exact .text hw h
    rw [begin?_of_ne hblank (not_exists.mp hmark) hquote] at hbegin
    split_ifs at hbegin
    · cases hbegin
      obtain ⟨w, r, t, ts', rfl, rfl, -, hend, ht, h⟩ := hreads
      exact .numeral (numeral?_eq_some_iff.mp ht) hend h
    · cases hbegin
      obtain ⟨w, r, t, ts', rfl, rfl, -, hend, ht, h⟩ := hreads
      exact .word (word?_eq_some_iff.mp ht) hend h

/-! ### Strings -/

section Strings

variable {inside inside' : List Char → List ℕ → Prop}

lemma not_readsText_nil : ¬ ReadsText units inside [] ts := by
  rintro ⟨w, us, r, ts', hs, -, -, -⟩
  exact absurd hs (by simp)

lemma readsText_congr (h : ∀ w us, inside w us ↔ inside' w us) :
    ReadsText units inside s ts ↔ ReadsText units inside' s ts := by
  simp only [ReadsText, h]

/-- A character goes on with a string that cannot end before it. -/
lemma readsText_cons (hc : c = '"' → ∀ us, ¬ inside [] us) :
    ReadsText units inside (c :: s) ts ↔ ReadsText units (fun w us => inside (c :: w) us) s ts := by
  constructor
  · rintro ⟨w, us, r, ts', hs, rfl, hw, h⟩
    cases w with
    | nil => exact absurd hw (hc (List.cons.inj hs).1 us)
    | cons d w =>
      obtain ⟨rfl, rfl⟩ := List.cons.inj hs
      exact ⟨w, us, r, ts', rfl, rfl, hw, h⟩
  · rintro ⟨w, us, r, ts', rfl, rfl, hw, h⟩
    exact ⟨c :: w, us, r, ts', rfl, rfl, hw, h⟩

/-- A unit that has been read joins the others. -/
lemma readsText_unit {unit? : Option ℕ} : ReadsText units (InsideUnit unit?) s ts ↔
    ∃ n, unit? = some n ∧ ReadsText (units ++ [n]) Inside s ts := by
  constructor
  · rintro ⟨w, _, r, ts', hs, rfl, ⟨n, us, hn, rfl, hw⟩, h⟩
    refine ⟨n, hn, w, us, r, ts', hs, ?_, hw, h⟩
    rw [List.append_assoc, List.singleton_append]
  · rintro ⟨n, hn, w, us, r, ts', hs, rfl, hw, h⟩
    refine ⟨w, n :: us, r, ts', hs, ?_, ⟨n, us, hn, rfl, hw⟩, h⟩
    rw [List.append_assoc, List.singleton_append]

lemma not_inside_quote : ¬ Inside ('"' :: w) us := by
  rintro (_ | ⟨hquote, -, -, -⟩)
  exact hquote rfl

/-- A quote ends a string. -/
lemma readsText_quote : ReadsText units Inside ('"' :: s) ts ↔
    ∃ rest, Spells rest s ∧ .ofUnits units :: rest = ts := by
  constructor
  · rintro ⟨w, us, r, ts', hs, rfl, hw, h⟩
    cases w with
    | nil =>
      obtain ⟨-, rfl⟩ := List.cons.inj hs
      cases hw
      exact ⟨ts', h, by rw [List.append_nil]⟩
    | cons c w =>
      obtain ⟨rfl, -⟩ := List.cons.inj hs
      exact absurd hw not_inside_quote
  · rintro ⟨rest, h, rfl⟩
    exact ⟨[], [], s, rest, rfl, by rw [List.append_nil], .nil, h⟩

/-- Another character than a quote or a backslash stands for itself, if it is no control character. -/
lemma inside_plain (hquote : c ≠ '"') (hslash : c ≠ '\\') : Inside (c :: w) us ↔
    InsideUnit (if c.toNat < 0x20 then none else some c.toNat) w us := by
  constructor
  · rintro (_ | ⟨-, -, hcontrol, hw⟩ | _ | _)
    · exact ⟨_, _, if_neg (by omega), rfl, hw⟩
    · exact absurd rfl hslash
    · exact absurd rfl hslash
  · rintro ⟨n, us, hn, rfl, hw⟩
    split_ifs at hn with hcontrol
    cases hn
    exact .plain hquote hslash (by omega) hw

/-- An escape of one letter stands for a unit of its own. -/
lemma inside_escape (hc : c ≠ 'u') :
    Inside ('\\' :: c :: w) us ↔ InsideUnit (escapeUnit? c) w us := by
  constructor
  · rintro (_ | ⟨-, hslash, -, -⟩ | ⟨hn, hw⟩ | _)
    · exact absurd rfl hslash
    · exact ⟨_, _, hn, rfl, hw⟩
    · exact absurd rfl hc
  · rintro ⟨n, us, hn, rfl, hw⟩
    exact .escape hn hw

/-- An escape with a `u` has four digits. -/
lemma inside_unicode : Inside ('\\' :: 'u' :: w) us ↔ InsideDigits 0 0 w us := by
  constructor
  · generalize hv : '\\' :: 'u' :: w = v
    rintro (_ | ⟨-, hslash, -, -⟩ | ⟨hn, hw⟩ | ⟨hlength, hn, hw⟩)
    · cases hv
    · exact absurd (List.cons.inj hv).1.symm hslash
    · obtain ⟨rfl, rfl⟩ := List.cons.inj (List.cons.inj hv).2
      cases hn
    · obtain ⟨-, rfl⟩ := List.cons.inj (List.cons.inj hv).2
      refine ⟨_, _, _, _, rfl, rfl, ?_, by omega, hn, hw⟩
      rintro rfl
      cases hlength
  · rintro ⟨ds, w, n, us, rfl, rfl, -, hlength, hn, hw⟩
    exact .unicode (by omega) hn hw

/-- A digit of an escape, which may be the last. -/
lemma insideDigits_cons {digits unit : ℕ} : InsideDigits digits unit (c :: w) us ↔
    ∃ d, Text.digitValue? 16 c = some d ∧
      if digits = 3 then InsideUnit (some (unit * 16 + d)) w us
      else InsideDigits (digits + 1) (unit * 16 + d) w us := by
  constructor
  · rintro ⟨ds, v, n, us, hv, rfl, hne, hlength, hn, hw⟩
    obtain ⟨c', ds, rfl⟩ := List.exists_cons_of_ne_nil hne
    obtain ⟨rfl, rfl⟩ := List.cons.inj hv
    rw [Text.valueFrom?] at hn
    rw [List.length_cons] at hlength
    cases hd : Text.digitValue? 16 c with
    | none =>
      rw [hd] at hn
      cases hn
    | some d =>
      rw [hd] at hn
      refine ⟨d, rfl, ?_⟩
      split_ifs with hlast
      · obtain rfl : ds = [] := List.length_eq_zero_iff.mp (by omega)
        exact ⟨n, us, hn, rfl, hw⟩
      · refine ⟨ds, v, n, us, rfl, rfl, ?_, by omega, hn, hw⟩
        rintro rfl
        rw [List.length_nil] at hlength
        omega
  · rintro ⟨d, hd, h⟩
    split_ifs at h with hlast
    · obtain ⟨n, us, hn, rfl, hw⟩ := h
      refine ⟨[c], w, n, us, rfl, rfl, List.cons_ne_nil _ _, by rw [hlast]; rfl, ?_, hw⟩
      rw [Text.valueFrom?, hd]
      exact hn
    · obtain ⟨ds, v, n, us, rfl, rfl, -, hlength, hn, hw⟩ := h
      refine ⟨c :: ds, v, n, us, rfl, rfl, List.cons_ne_nil _ _, ?_, ?_, hw⟩
      · rw [List.length_cons]
        omega
      · rw [Text.valueFrom?, hd]
        exact hn

lemma not_inside_backslash : ¬ Inside ['\\'] us := by
  rintro (_ | ⟨-, hslash, -, -⟩)
  exact hslash rfl

lemma not_insideDigits_nil {digits unit : ℕ} : ¬ InsideDigits digits unit [] us := by
  rintro ⟨ds, v, n, us, hv, -, hne, -, -, -⟩
  exact hne (List.append_eq_nil_iff.mp hv.symm).1

end Strings

/-! ### The machine -/

/-- A run that ends before a character leaves the character to be read from between tokens. -/
lemma readsRun_of_neg (hc : ¬ p c = true) : ReadsRun p token? seen (c :: s) ts ↔
    ∃ done m rest, endThen? (token? seen) c = some (done, m) ∧ m.Reads s rest ∧
      done ++ rest = ts := by
  have hend : Ends p (c :: s) := ends_cons (Bool.eq_false_iff.mpr hc)
  refine (readsRun_of_ends hend).trans ⟨?_, ?_⟩
  · rintro ⟨t, rest, rfl, ht, h⟩
    obtain ⟨done, m, rest, hbegin, hreads, rfl⟩ := spells_cons_iff.mp h
    refine ⟨t :: done, m, rest, ?_, hreads, rfl⟩
    simp only [endThen?, ht, hbegin]
  · rintro ⟨done, m, rest, hthen, hreads, rfl⟩
    unfold endThen? at hthen
    split at hthen
    · next t done' m' ht hbegin =>
      cases hthen
      exact ⟨t, done' ++ rest, rfl, ht, spells_cons_iff.mpr ⟨done', m, rest, hbegin, hreads, rfl⟩⟩
    · cases hthen

/-- A step that completes no token leaves the rest of the text to the next mode. -/
lemma reads_iff_of_step? {m m' : Mode} (h : step? m c = some ([], m')) : m'.Reads s ts ↔
    ∃ done m' rest, step? m c = some (done, m') ∧ m'.Reads s rest ∧ done ++ rest = ts := by
  simp [h]

/-- A step that reads a unit of a string, if there is one to read, leaves the rest to the string. -/
lemma readsText_iff_of_step? {m : Mode} {unit? : Option ℕ}
    (h : step? m c = unit?.map fun n => ([], .text (units ++ [n]))) :
    ReadsText units (InsideUnit unit?) s ts ↔
      ∃ done m' rest, step? m c = some (done, m') ∧ m'.Reads s rest ∧ done ++ rest = ts := by
  refine readsText_unit.trans ?_
  cases unit? with
  | none => simp [h]
  | some n => simp [h, Mode.Reads]

/-- A mode keeps its meaning: what the rest of a text spells is what the machine completes at its first
character, followed by what the rest behind that spells in the next mode. -/
lemma reads_cons_iff (m : Mode) : m.Reads (c :: s) ts ↔
    ∃ done m' rest, step? m c = some (done, m') ∧ m'.Reads s rest ∧ done ++ rest = ts := by
  cases m with
  | between => exact spells_cons_iff
  | numeral seen =>
    by_cases hc : isNumeralChar c = true
    · have hstep : step? (.numeral seen) c = some ([], .numeral (seen ++ [c])) := if_pos hc
      exact (readsRun_cons hc).trans (reads_iff_of_step? hstep)
    · rw [step?, if_neg hc]
      exact readsRun_of_neg hc
  | word seen =>
    by_cases hc : c.isAlpha = true
    · have hstep : step? (.word seen) c = some ([], .word (seen ++ [c])) := if_pos hc
      exact (readsRun_cons hc).trans (reads_iff_of_step? hstep)
    · rw [step?, if_neg hc]
      exact readsRun_of_neg hc
  | text units =>
    by_cases hquote : c = '"'
    · subst hquote
      have hstep : step? (.text units) '"' = some ([.ofUnits units], .between) := rfl
      refine readsText_quote.trans ?_
      simp [hstep, Mode.Reads]
    by_cases hslash : c = '\\'
    · subst hslash
      have hstep : step? (.text units) '\\' = some ([], .escape units) := rfl
      exact (readsText_cons fun h => absurd h (by decide)).trans (reads_iff_of_step? hstep)
    · refine (readsText_cons fun h => absurd h hquote).trans ?_
      refine (readsText_congr fun w us => inside_plain hquote hslash).trans ?_
      refine readsText_iff_of_step? ?_
      rw [step?, if_neg hquote, if_neg hslash]
      split
      · rfl
      · rfl
  | escape units =>
    refine (readsText_cons fun _ us => not_inside_backslash).trans ?_
    by_cases hc : c = 'u'
    · subst hc
      have hstep : step? (.escape units) 'u' = some ([], .unicode units 0 0) := rfl
      exact (readsText_congr fun w us => inside_unicode).trans (reads_iff_of_step? hstep)
    · refine (readsText_congr fun w us => inside_escape hc).trans ?_
      exact readsText_iff_of_step? (if_neg hc)
  | unicode units digits unit =>
    refine (readsText_cons fun _ us => not_insideDigits_nil).trans ?_
    refine (readsText_congr fun w us => insideDigits_cons).trans ?_
    cases hd : Text.digitValue? 16 c with
    | none =>
      have hstep : step? (.unicode units digits unit) c = none := by rw [step?, hd]
      simp [hstep, ReadsText]
    | some d =>
      simp only [Option.some.injEq, exists_eq_left']
      by_cases hlast : digits = 3
      · simp only [if_pos hlast]
        refine readsText_iff_of_step? ?_
        rw [step?, hd]
        exact if_pos hlast
      · have hstep : step? (.unicode units digits unit) c =
            some ([], .unicode units (digits + 1) (unit * 16 + d)) := by
          rw [step?, hd]
          exact if_neg hlast
        simp only [if_neg hlast]
        exact reads_iff_of_step? hstep

/-- At the end of a text, a mode spells what the machine completes there. -/
lemma reads_nil_iff (m : Mode) : m.Reads [] ts ↔ tokensFrom? m [] = some ts := by
  have hrun (p : Char → Bool) (token? : List Char → Option Token) (seen : List Char) :
      ReadsRun p token? seen [] ts ↔ (token? seen).map ([·]) = some ts := by
    refine (readsRun_of_ends ends_nil).trans ?_
    simp only [spells_nil_iff, Option.map_eq_some_iff]
    constructor
    · rintro ⟨t, _, rfl, ht, rfl⟩
      exact ⟨t, ht, rfl⟩
    · rintro ⟨t, ht, rfl⟩
      exact ⟨t, [], rfl, ht, rfl⟩
  cases m with
  | between => exact spells_nil_iff.trans (by rw [tokensFrom?, Option.some.injEq, eq_comm])
  | numeral seen => exact hrun isNumeralChar numeral? seen
  | word seen => exact hrun Char.isAlpha word? seen
  | text units => exact iff_of_false not_readsText_nil (by simp [tokensFrom?])
  | escape units => exact iff_of_false not_readsText_nil (by simp [tokensFrom?])
  | unicode units digits unit => exact iff_of_false not_readsText_nil (by simp [tokensFrom?])

lemma tokensFrom?_cons (m : Mode) : tokensFrom? m (c :: s) =
    (step? m c).bind fun next => (tokensFrom? next.2 s).map (next.1 ++ ·) := by
  rw [tokensFrom?]
  cases step? m c <;> rfl

/-- The tokens that the machine reads from the rest of a text are those that it spells in its mode. -/
lemma tokensFrom?_eq_some_iff (m : Mode) : tokensFrom? m s = some ts ↔ m.Reads s ts := by
  induction s generalizing m ts with
  | nil => exact (reads_nil_iff m).symm
  | cons c s ih =>
    simp only [tokensFrom?_cons, Option.bind_eq_some_iff, Option.map_eq_some_iff, ih, reads_cons_iff,
      Prod.exists]
    constructor
    · rintro ⟨done, m', hstep, rest, hreads, hts⟩
      exact ⟨done, m', rest, hstep, hreads, hts⟩
    · rintro ⟨done, m', rest, hstep, hreads, hts⟩
      exact ⟨done, m', hstep, rest, hreads, hts⟩

/-- The tokens of a text are those that it spells. -/
theorem tokens?_eq_some_iff : tokens? s = some ts ↔ Spells ts s := tokensFrom?_eq_some_iff .between

end Modes

/-! ## Plain strings -/

/-- Whether a character can stand for itself in a string. -/
def isPlain (c : Char) : Bool := c != '"' && c != '\\' && 0x20 ≤ c.toNat

/-- A text in quotes, with a rest behind it. -/
def quoted (s : String) (r : List Char) : List Char := '"' :: (s.toList ++ '"' :: r)

/-- The numbers of characters are no halves of surrogate pairs. -/
lemma ofUnits?_map_toNat (w : List Char) : ofUnits? (w.map Char.toNat) = some w := by
  induction w with
  | nil => rfl
  | cons c w ih =>
    have hvalid : c.toNat < 0xD800 ∨ 0xDFFF < c.toNat ∧ c.toNat < 0x110000 := c.valid
    have hlead : isLead c.toNat = false := by
      simp only [isLead, Bool.and_eq_false_iff, decide_eq_false_iff_not]
      omega
    have htrail : isTrail c.toNat = false := by
      simp only [isTrail, Bool.and_eq_false_iff, decide_eq_false_iff_not]
      omega
    rw [List.map_cons, ofUnits?.eq_def]
    simp only [hlead, htrail, ih, Char.ofNat_toNat, Bool.false_eq_true, if_false, Option.map_some]

lemma inside_map_toNat {w : List Char} (h : w.all isPlain = true) : Inside w (w.map Char.toNat) := by
  induction w with
  | nil => exact .nil
  | cons c w ih =>
    rw [List.all_cons, Bool.and_eq_true] at h
    simp only [isPlain, Bool.and_eq_true, bne_iff_ne, decide_eq_true_eq] at h
    obtain ⟨⟨⟨hquote, hslash⟩, hcontrol⟩, hw⟩ := h
    exact .plain hquote hslash hcontrol (ih hw)

/-- A text of plain characters is spelled by itself in quotes. -/
lemma Spells.quoted {s : String} {r : List Char} {ts : List Token} (hs : s.toList.all isPlain = true)
    (h : Spells ts r) : Spells (.text (some s) :: ts) (quoted s r) := by
  have htext := Spells.text (inside_map_toNat hs) h
  rw [Token.ofUnits, ofUnits?_map_toNat, Option.map_some, String.ofList_toList] at htext
  exact htext

end Gateway.Json
