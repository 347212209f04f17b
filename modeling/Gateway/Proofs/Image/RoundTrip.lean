import Mathlib
import Gateway.Image.TransformReader
import Gateway.Proofs.Json.Value

/-!
# Transformations read back

Which JSON texts denote which transformation: a value gives values to the six fields
(`Transform.given`), by place in an array and by name in an object, and denotes a transformation if it gives
each field exactly one value and that is a way to write what the transformation has there
(`Transform.Denotes`). Blanks and escapes are free, and so are the order of members and members with other
names, since only what is given to the fields makes a difference (`Transform.denotes_congr`). The reader
accepts exactly the texts that denote a transformation, and the compact text is one of them, so that it stands
for all texts that denote the same (`Transform.roundTrip_json`).
-/

namespace Gateway.Image.Transform

open Json (Writes Spells Token quoted isPlain Ends ends_cons isNumeralChar)

/-! ## Fields -/

/-- The fields of a transformation. -/
inductive Field where
  | fitting
  | width
  | height
  | enlarge
  | quality
  | format

namespace Field

/-- The name of a field in an object. -/
def name : Field → String
  | fitting => "resize"
  | width => "width"
  | height => "height"
  | enlarge => "enlarge"
  | quality => "quality"
  | format => "format"

/-- The place of a field in an array. -/
def place : Field → ℕ
  | fitting => 0
  | width => 1
  | height => 2
  | enlarge => 3
  | quality => 4
  | format => 5

/-- The limit below which a number must be. -/
def limit? : Field → Option ℕ
  | width => some (2 ^ 32)
  | height => some (2 ^ 32)
  | quality => some (2 ^ 8)
  | _ => none

end Field

/-- Whether a value is a way to write a word. -/
def IsWord (word : String) (v : Json) : Prop :=
  v = .text (some word) ∨ v = .object [(some word, .null)]

/-- Whether a value is a way to write what a transformation has in a field. -/
def Holds (t : Transform) : Field → Json → Prop
  | .fitting, v => IsWord t.fitting.name v
  | .width, v => v = .nat t.width.toNat
  | .height, v => v = .nat t.height.toNat
  | .enlarge, v => v = .bool t.enlarge
  | .quality, v => v = .nat t.quality.toNat
  | .format, v => IsWord t.format.name v

/-- Whether a value is a number that a field cannot hold, because it is not a natural number below the
limit. -/
def Exceeds (f : Field) (v : Json) : Prop :=
  ∃ limit, f.limit? = some limit ∧ (v = .otherNumber ∨ ∃ n, v = .nat n ∧ limit ≤ n)

/-- The values that a JSON value gives to a field: what stands at the place of the field in an array, and
what the members with the name of the field have in an object. -/
def given (f : Field) : Json → List Json
  | .array items => items[f.place]?.toList
  | .object members => (members.filter fun m => m.1 = some f.name).map Prod.snd
  | _ => []

/-- Whether a value can be a record of the fields: an array that is not too long, or an object of which all
names are texts. -/
def IsRecord : Json → Prop
  | .array items => items.length ≤ 6
  | .object members => ∀ m ∈ members, m.1 ≠ none
  | _ => False

/-- Whether a value denotes a transformation. -/
structure Denotes (v : Json) (t : Transform) : Prop where
  isRecord : IsRecord v
  fields : ∀ f, ∃ w, given f v = [w] ∧ t.Holds f w

/-- The compact text of the transformation that a text denotes. -/
def compact? (s : String) : Option String := (parse? s).map json

section Reader

variable {t : Transform} {v a b c d e f : Json} {members : List (Option String × Json)}

lemma word?_eq_some_iff {word : String} : word? v = some word ↔ IsWord word v := by
  constructor
  · intro h
    unfold word? at h
    split at h
    · exact .inl (by rw [h])
    · exact .inr (by rw [h])
    · cases h
  · rintro (rfl | rfl) <;> rfl

lemma ofName?_fitting {word : String} {x : Fitting} :
    Fitting.ofName? word = some x ↔ word = x.name := by
  constructor
  · intro h
    unfold Fitting.ofName? at h
    have hname := List.find?_some h
    exact (beq_iff_eq.mp hname).symm
  · rintro rfl
    cases x <;> decide +kernel

lemma ofName?_format {word : String} {x : Format} :
    Format.ofName? word = some x ↔ word = x.name := by
  constructor
  · intro h
    unfold Format.ofName? at h
    have hname := List.find?_some h
    exact (beq_iff_eq.mp hname).symm
  · rintro rfl
    cases x <;> decide +kernel

lemma below?_eq_some_iff {limit n : ℕ} : below? limit v = some n ↔ v = .nat n ∧ n < limit := by
  unfold below?
  split
  · next k =>
    split_ifs with hlt
    · simp only [Option.some.injEq, Json.nat.injEq]
      constructor
      · rintro rfl
        exact ⟨rfl, hlt⟩
      · exact And.left
    · simp only [Json.nat.injEq, false_iff]
      rintro ⟨rfl, h⟩
      exact hlt h
  · next hnat =>
    refine iff_of_false nofun ?_
    rintro ⟨rfl, -⟩
    exact hnat n rfl

lemma flag?_eq_some_iff {x : Bool} : flag? v = some x ↔ v = .bool x := by
  cases v <;> simp [flag?]

/-- Six values are read as a transformation exactly if they are ways to write what it has. -/
lemma ofValues?_eq_some_iff : ofValues? a b c d e f = some t ↔
    t.Holds .fitting a ∧ t.Holds .width b ∧ t.Holds .height c ∧ t.Holds .enlarge d ∧
      t.Holds .quality e ∧ t.Holds .format f := by
  have hlimit : 1 <<< 32 = 2 ^ 32 := rfl
  simp only [ofValues?, Option.bind_eq_bind, Option.bind_eq_some_iff, word?_eq_some_iff,
    ofName?_fitting, ofName?_format, below?_eq_some_iff, flag?_eq_some_iff, hlimit, Option.pure_def,
    Option.some.injEq]
  constructor
  · rintro ⟨fitting, ⟨_, ha, rfl⟩, width, ⟨rfl, hwidth⟩, height, ⟨rfl, hheight⟩, enlarge, rfl, quality,
      ⟨rfl, hquality⟩, format, ⟨_, hf, rfl⟩, rfl⟩
    refine ⟨ha, ?_, ?_, rfl, ?_, hf⟩
    · exact congrArg Json.nat (UInt32.toNat_ofNat_of_lt' hwidth).symm
    · exact congrArg Json.nat (UInt32.toNat_ofNat_of_lt' hheight).symm
    · exact congrArg Json.nat (UInt8.toNat_ofNat_of_lt' hquality).symm
  · rintro ⟨ha, rfl, rfl, rfl, rfl, hf⟩
    refine ⟨t.fitting, ⟨_, ha, rfl⟩, t.width.toNat, ⟨rfl, t.width.toNat_lt⟩, t.height.toNat,
      ⟨rfl, t.height.toNat_lt⟩, t.enlarge, rfl, t.quality.toNat, ⟨rfl, t.quality.toNat_lt⟩, t.format,
      ⟨_, hf, rfl⟩, ?_⟩
    simp

lemma only?_eq_some_iff {f : Field} : only? f.name members = some v ↔
    given f (.object members) = [v] := by
  simp only [only?, given, beq_eq_decide]
  generalize members.filter (fun m => m.1 = some f.name) = found
  rcases found with _ | ⟨m, _ | ⟨m', ms⟩⟩
  · simp
  · simp
  · simp

/-- A value denotes a transformation if the values that it gives to the fields are read as one. -/
lemma denotes_iff : Denotes v t ↔ IsRecord v ∧ ∃ a b c d e f,
    given .fitting v = [a] ∧ given .width v = [b] ∧ given .height v = [c] ∧
      given .enlarge v = [d] ∧ given .quality v = [e] ∧ given .format v = [f] ∧
      ofValues? a b c d e f = some t := by
  simp only [ofValues?_eq_some_iff]
  constructor
  · rintro ⟨hrecord, hfields⟩
    obtain ⟨a, ha, hfitting⟩ := hfields .fitting
    obtain ⟨b, hb, hwidth⟩ := hfields .width
    obtain ⟨c, hc, hheight⟩ := hfields .height
    obtain ⟨d, hd, henlarge⟩ := hfields .enlarge
    obtain ⟨e, he, hquality⟩ := hfields .quality
    obtain ⟨f, hf, hformat⟩ := hfields .format
    exact ⟨hrecord, a, b, c, d, e, f, ha, hb, hc, hd, he, hf, hfitting, hwidth, hheight, henlarge,
      hquality, hformat⟩
  · rintro ⟨hrecord, a, b, c, d, e, f, ha, hb, hc, hd, he, hf, hfitting, hwidth, hheight, henlarge,
      hquality, hformat⟩
    refine ⟨hrecord, fun field => ?_⟩
    cases field with
    | fitting => exact ⟨a, ha, hfitting⟩
    | width => exact ⟨b, hb, hwidth⟩
    | height => exact ⟨c, hc, hheight⟩
    | enlarge => exact ⟨d, hd, henlarge⟩
    | quality => exact ⟨e, he, hquality⟩
    | format => exact ⟨f, hf, hformat⟩

/-- An array that is not too long and has all six fields has these six items. -/
lemma eq_of_given_array {items : List Json} (hrecord : IsRecord (.array items))
    (ha : given .fitting (.array items) = [a]) (hb : given .width (.array items) = [b])
    (hc : given .height (.array items) = [c]) (hd : given .enlarge (.array items) = [d])
    (he : given .quality (.array items) = [e]) (hf : given .format (.array items) = [f]) :
    items = [a, b, c, d, e, f] := by
  simp only [given, Field.place, Option.toList_eq_singleton_iff] at ha hb hc hd he hf
  refine List.ext_getElem? fun i => ?_
  by_cases hi : i < 6
  · interval_cases i
    exacts [ha, hb, hc, hd, he, hf]
  · have hsix : 6 ≤ i := Nat.le_of_not_lt hi
    rw [List.getElem?_eq_none (Nat.le_trans hrecord hsix), List.getElem?_eq_none hsix]

/-- The reader of values reads exactly the transformation that a value denotes. -/
lemma ofJson?_eq_some_iff : ofJson? v = some t ↔ Denotes v t := by
  rw [denotes_iff]
  cases v with
  | array items =>
    constructor
    · intro h
      unfold ofJson? at h
      split at h
      · next a b c d e f heq =>
        cases heq
        exact ⟨Nat.le_refl 6, a, b, c, d, e, f, rfl, rfl, rfl, rfl, rfl, rfl, h⟩
      · next heq => cases heq
      · cases h
    · rintro ⟨hrecord, a, b, c, d, e, f, ha, hb, hc, hd, he, hf, h⟩
      rw [eq_of_given_array hrecord ha hb hc hd he hf]
      exact h
  | object members =>
    have hnames : (members.all fun m => m.1.isSome) = true ↔ IsRecord (.object members) := by
      simp [IsRecord, Option.isSome_iff_ne_none]
    constructor
    · intro h
      rw [ofJson?] at h
      split_ifs at h with hrecord
      simp only [Option.bind_eq_bind, Option.bind_eq_some_iff] at h
      obtain ⟨a, ha, b, hb, c, hc, d, hd, e, he, f, hf, h⟩ := h
      exact ⟨hnames.mp hrecord, a, b, c, d, e, f, only?_eq_some_iff.mp ha, only?_eq_some_iff.mp hb,
        only?_eq_some_iff.mp hc, only?_eq_some_iff.mp hd, only?_eq_some_iff.mp he,
        only?_eq_some_iff.mp hf, h⟩
    · rintro ⟨hrecord, a, b, c, d, e, f, ha, hb, hc, hd, he, hf, h⟩
      rw [← only?_eq_some_iff] at ha hb hc hd he hf
      rw [ofJson?, if_pos (hnames.mpr hrecord)]
      simp only [Option.bind_eq_bind, Option.bind_eq_some_iff]
      exact ⟨a, ha, b, hb, c, hc, d, hd, e, he, f, hf, h⟩
  | _ => exact iff_of_false nofun fun h => h.1

/-- The reader of texts reads exactly the transformation that a text denotes. -/
lemma parse?_eq_some_iff {s : String} :
    parse? s = some t ↔ ∃ v, Writes s.toList v ∧ Denotes v t := by
  simp only [parse?, Option.bind_eq_some_iff, Json.read?_eq_some_iff, ofJson?_eq_some_iff]

/-- A value denotes one transformation at most. -/
lemma Denotes.unique {u : Transform} (ht : Denotes v t) (hu : Denotes v u) : t = u :=
  Option.some.inj ((ofJson?_eq_some_iff.mpr ht).symm.trans (ofJson?_eq_some_iff.mpr hu))

/-- Only what a value gives to the fields makes a difference. -/
lemma denotes_congr {w : Json} (hrecord : IsRecord v ↔ IsRecord w)
    (hgiven : ∀ f u, given f v = [u] ↔ given f w = [u]) : Denotes v t ↔ Denotes w t := by
  constructor
  · rintro ⟨h, hfields⟩
    refine ⟨hrecord.mp h, fun f => ?_⟩
    obtain ⟨u, hu, hholds⟩ := hfields f
    exact ⟨u, (hgiven f u).mp hu, hholds⟩
  · rintro ⟨h, hfields⟩
    refine ⟨hrecord.mpr h, fun f => ?_⟩
    obtain ⟨u, hu, hholds⟩ := hfields f
    exact ⟨u, (hgiven f u).mpr hu, hholds⟩

/-- The order of members makes no difference. -/
lemma denotes_perm {members' : List (Option String × Json)} (h : members.Perm members') :
    Denotes (.object members) t ↔ Denotes (.object members') t := by
  refine denotes_congr (forall_congr' fun m => imp_congr_left h.mem_iff) fun f u => ?_
  have hperm : (given f (.object members)).Perm (given f (.object members')) := (h.filter _).map _
  rw [← List.perm_singleton, ← List.perm_singleton]
  exact ⟨hperm.symm.trans, hperm.trans⟩

/-- A member with another name makes no difference. -/
lemma denotes_cons {name : String} (h : ∀ f : Field, f.name ≠ name) :
    Denotes (.object ((some name, v) :: members)) t ↔ Denotes (.object members) t := by
  refine denotes_congr (by simp [IsRecord]) fun f u => ?_
  have hgiven : given f (.object ((some name, v) :: members)) = given f (.object members) := by
    simp [given, (h f).symm]
  rw [hgiven]

/-- A value that a field cannot hold is not what a transformation has there. -/
lemma Exceeds.not_holds {f : Field} (h : Exceeds f v) : ¬ t.Holds f v := by
  obtain ⟨limit, hlimit, hv⟩ := h
  intro hholds
  have hnumber {k : ℕ} (hk : k < limit) : v ≠ .nat k := by
    rintro rfl
    rcases hv with hv | ⟨n, hv, hn⟩
    · cases hv
    · cases hv
      omega
  cases f with
  | width =>
    cases hlimit
    exact hnumber t.width.toNat_lt hholds
  | height =>
    cases hlimit
    exact hnumber t.height.toNat_lt hholds
  | quality =>
    cases hlimit
    exact hnumber t.quality.toNat_lt hholds
  | _ => cases hlimit

end Reader

/-! ## The compact text -/

/-- The value of the compact text. -/
def value (t : Transform) : Json :=
  .object [(some "resize", .text (some t.fitting.name)), (some "width", .nat t.width.toNat),
    (some "height", .nat t.height.toNat), (some "enlarge", .bool t.enlarge),
    (some "quality", .nat t.quality.toNat), (some "format", .text (some t.format.name))]

section Compact

variable (t : Transform)

lemma denotes_value : Denotes t.value t := by
  refine ⟨by simp [value, IsRecord], fun f => ?_⟩
  cases f with
  | fitting => exact ⟨_, rfl, .inl rfl⟩
  | format => exact ⟨_, rfl, .inl rfl⟩
  | _ => exact ⟨_, rfl, rfl⟩

/-- A member that is followed by a comma, with a rest behind it. -/
def entry (name : String) (value r : List Char) : List Char :=
  quoted name (':' :: (value ++ ',' :: r))

/-- The compact text, member by member. -/
lemma toList_json : t.json.toList =
    '\x7b' :: quoted "resize" (':' :: quoted t.fitting.name (',' ::
      entry "width" (Text.decimal t.width.toNat)
        (entry "height" (Text.decimal t.height.toNat)
          (entry "enlarge" (flagText t.enlarge).toList
            (entry "quality" (Text.decimal t.quality.toNat)
              (quoted "format" (':' :: quoted t.format.name ['\x7d']))))))) := by
  have hresize : "\x7b\"resize\":\"".toList = '\x7b' :: '"' :: ("resize".toList ++ ['"', ':', '"']) :=
    rfl
  have hwidth : "\",\"width\":".toList = '"' :: ',' :: '"' :: ("width".toList ++ ['"', ':']) := rfl
  have hheight : ",\"height\":".toList = ',' :: '"' :: ("height".toList ++ ['"', ':']) := rfl
  have henlarge : ",\"enlarge\":".toList = ',' :: '"' :: ("enlarge".toList ++ ['"', ':']) := rfl
  have hquality : ",\"quality\":".toList = ',' :: '"' :: ("quality".toList ++ ['"', ':']) := rfl
  have hformat : ",\"format\":\"".toList = ',' :: '"' :: ("format".toList ++ ['"', ':', '"']) := rfl
  have hend : "\"\x7d".toList = ['"', '\x7d'] := rfl
  unfold json
  repeat rw [String.toList_append]
  rw [hresize, hwidth, hheight, henlarge, hquality, hformat, hend]
  unfold entry quoted numeral
  repeat rw [String.toList_ofList]
  simp only [List.append_assoc, List.cons_append, List.nil_append]

/-- A member with a number is followed by a comma. -/
lemma spells_number {ts : List Token} {name : String} {r : List Char} (n : ℕ)
    (hname : name.toList.all isPlain = true) (h : Spells ts r) :
    Spells (.text (some name) :: .colon :: .nat n :: .comma :: ts)
      (entry name (Text.decimal n) r) := by
  have hend : Ends isNumeralChar (',' :: r) := ends_cons rfl
  exact .quoted hname (.mark rfl (.numeral (.nat n) hend (.mark rfl h)))

/-- A member with a flag is followed by a comma. -/
lemma spells_flag {ts : List Token} {name : String} {r : List Char} (b : Bool)
    (hname : name.toList.all isPlain = true) (h : Spells ts r) :
    Spells (.text (some name) :: .colon :: .bool b :: .comma :: ts)
      (entry name (flagText b).toList r) := by
  have hend : Ends Char.isAlpha (',' :: r) := ends_cons rfl
  have hletters : Token.letters? (.bool b) = some (flagText b).toList := by
    cases b <;> rfl
  exact .quoted hname (.mark rfl (.word hletters hend (.mark rfl h)))

/-- The compact text is a way to write its value. -/
lemma writes_json : Writes t.json.toList t.value := by
  have hfitting : t.fitting.name.toList.all isPlain = true := by
    cases t.fitting <;> rfl
  have hformat : t.format.name.toList.all isPlain = true := by
    cases t.format <;> rfl
  rw [toList_json]
  refine .mark rfl (.quoted rfl (.mark rfl (.quoted hfitting (.mark rfl ?_))))
  refine spells_number t.width.toNat rfl ?_
  refine spells_number t.height.toNat rfl ?_
  refine spells_flag t.enlarge rfl ?_
  refine spells_number t.quality.toNat rfl ?_
  exact .quoted rfl (.mark rfl (.quoted hformat (.mark rfl .nil)))

/-- The compact text is read back. -/
lemma parse?_json : parse? t.json = some t :=
  parse?_eq_some_iff.mpr ⟨t.value, writes_json t, denotes_value t⟩

end Compact

/-! ## Round trips -/

/-- The compact text tells the transformation. -/
lemma json_injective : Function.Injective json := by
  intro t u h
  have hparse := parse?_json u
  rw [← h, parse?_json t] at hparse
  exact Option.some.inj hparse

/-- Texts of values that denote the same are read as the same. -/
lemma parse?_congr {s s' : String} {v w : Json} (hs : Writes s.toList v) (hs' : Writes s'.toList w)
    (h : ∀ t, Denotes v t ↔ Denotes w t) : parse? s = parse? s' := by
  refine Option.ext fun t => ?_
  rw [parse?_eq_some_iff, parse?_eq_some_iff]
  constructor
  · rintro ⟨u, hu, hdenotes⟩
    exact ⟨w, hs', (h t).mp (hs.unique hu ▸ hdenotes)⟩
  · rintro ⟨u, hu, hdenotes⟩
    exact ⟨v, hs, (h t).mpr (hs'.unique hu ▸ hdenotes)⟩

/-- A transformation is read back from its compact text. A text is accepted exactly if it is a way to write
a value that denotes a transformation; its compact text is then accepted too, denotes the same and is its
own compact text. Texts denote the same exactly if they have the same compact text. In an object the order of
members makes no difference, and neither does a member with another name. A text that does not give a field
exactly one value, or gives it a number that it cannot hold, is refused. -/
theorem roundTrip_json :
    (∀ t, parse? t.json = some t) ∧
    (∀ s t, parse? s = some t ↔ ∃ v, Writes s.toList v ∧ Denotes v t) ∧
    (∀ s t, parse? s = some t →
      compact? s = some t.json ∧ parse? t.json = some t ∧ compact? t.json = some t.json) ∧
    (∀ s s', parse? s = parse? s' ↔ compact? s = compact? s') ∧
    (∀ s s' members members', Writes s.toList (.object members) → Writes s'.toList (.object members') →
      members.Perm members' → parse? s = parse? s') ∧
    (∀ s s' name v members, Writes s.toList (.object ((some name, v) :: members)) →
      Writes s'.toList (.object members) → (∀ f : Field, f.name ≠ name) → parse? s = parse? s') ∧
    ∀ s v f, Writes s.toList v →
      ((given f v).length ≠ 1 → parse? s = none) ∧ ∀ w ∈ given f v, Exceeds f w → parse? s = none := by
  have hrefused {s : String} {v : Json} (hs : Writes s.toList v) (h : ∀ t, ¬ Denotes v t) :
      parse? s = none := by
    rw [Option.eq_none_iff_forall_ne_some]
    intro t ht
    obtain ⟨u, hu, hdenotes⟩ := parse?_eq_some_iff.mp ht
    exact h t (hs.unique hu ▸ hdenotes)
  refine ⟨parse?_json, fun _ _ => parse?_eq_some_iff, fun s t h => ?_, fun s s' => ?_,
    fun s s' members members' hs hs' hperm => parse?_congr hs hs' fun t => denotes_perm hperm,
    fun s s' name v members hs hs' hother => parse?_congr hs hs' fun t => denotes_cons hother,
    fun s v f hs => ⟨fun hlength => hrefused hs ?_, fun w hw hexceeds => hrefused hs ?_⟩⟩
  · refine ⟨?_, parse?_json t, ?_⟩
    · rw [compact?, h, Option.map_some]
    · rw [compact?, parse?_json, Option.map_some]
  · exact (Option.map_injective json_injective).eq_iff.symm
  · intro t hdenotes
    obtain ⟨w, hw, -⟩ := hdenotes.fields f
    exact hlength (by rw [hw]; rfl)
  · intro t hdenotes
    obtain ⟨u, hu, hholds⟩ := hdenotes.fields f
    rw [hu, List.mem_singleton] at hw
    exact hexceeds.not_holds (hw ▸ hholds)

/-- An object in another order, with an unknown member, an escape and a word as a name, has the compact text
of the array of its values. -/
theorem compact?_object_eq_array :
    compact? "\x7b\"quality\":80, \"format\":\x7b\"png\":null\x7d, \"\\u0077idth\":4294967295,
      \"x\":[-1], \"enlarge\":true, \"height\":0, \"resize\":\"fit\"\x7d" =
        compact? "[\"fit\",4294967295,0,true,80,\"png\"]" ∧
      compact? "[\"fit\",4294967295,0,true,80,\"png\"]" =
        some (json ⟨.fit, 4294967295, 0, true, 80, .png⟩) :=
  ⟨(roundTrip_json.2.2.2.1 _ _).mp (by decide +kernel),
    (roundTrip_json.2.2.1 _ _ (by decide +kernel)).1⟩

end Gateway.Image.Transform
