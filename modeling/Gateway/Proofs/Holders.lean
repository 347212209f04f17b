import Mathlib

/-!
# Things and their holders

What is lent or handed out is listed with the names of those who hold it. As long as no name is listed
twice, the thing that is found under a name is the one that is listed with it
(`lookup_eq_some_iff_mem`), and if no thing is listed twice either, striking off a name strikes off one
thing (`map_snd_filter`).
-/

namespace Gateway

variable {α : Type} {held : List (String × α)} {name : String} {a : α}

/-- Nothing is found under a name that holds nothing. -/
lemma lookup_eq_none_iff : held.lookup name = none ↔ name ∉ held.map Prod.fst := by
  rw [List.lookup_eq_none_iff, List.mem_map]
  constructor
  · rintro h ⟨l, hl, rfl⟩
    simpa using h l hl
  · intro h l hl
    exact bne_iff_ne.mpr fun heq => h ⟨l, hl, heq.symm⟩

/-- What is found under a name is what is listed with it, if no name is listed twice. -/
lemma lookup_eq_some_iff_mem (hnames : (held.map Prod.fst).Nodup) :
    held.lookup name = some a ↔ (name, a) ∈ held := by
  have hmem {b : α} (hb : held.lookup name = some b) : (name, b) ∈ held := by
    obtain ⟨before, after, hheld, -⟩ := List.lookup_eq_some_iff.mp hb
    simp [hheld]
  refine ⟨hmem, fun ha => ?_⟩
  rcases hb : held.lookup name with _ | b
  · exact absurd (List.mem_map_of_mem ha) (lookup_eq_none_iff.mp hb)
  · have hsame := List.inj_on_of_nodup_map hnames (hmem hb) ha rfl
    rw [(Prod.mk.inj hsame).2]

/-- With the name of its holder one thing is struck off, if no name and no thing is listed twice. -/
lemma map_snd_filter [DecidableEq α] (hnames : (held.map Prod.fst).Nodup)
    (hthings : (held.map Prod.snd).Nodup) (ha : (name, a) ∈ held) :
    (held.filter fun l => l.1 != name).map Prod.snd = (held.map Prod.snd).erase a := by
  rw [hthings.erase_eq_filter, List.filter_map]
  congr 1
  refine List.filter_congr fun l hl => ?_
  have hiff : l.1 = name ↔ l.2 = a := by
    constructor
    · intro hname
      rw [List.inj_on_of_nodup_map hnames hl ha hname]
    · intro hthing
      rw [List.inj_on_of_nodup_map hthings hl ha hthing]
  simp [hiff, bne]

end Gateway
