import Mathlib
import Gateway.Proofs.Encoder.Disposition

/-!
# Download names that are missing

The fixed name stands in for a last segment that is not there, and not for one of which nothing is left: the
escapes are undone, what follows the last dot is cut off and controls are dropped only when the choice has
been made. So the value can suggest an extension without a name, and it does so exactly for the sources
whose last segment has nothing but controls in front of its last dot (`Disposition.nameless_iff_of_value`,
`Disposition.exists_nameless`).
-/

namespace Gateway.Disposition

/-- Whether a source can be read and the last segment of its path is the given one, which is not empty. -/
def EndsWith (urls : Url.Reader) (source : String) (last : List Char) : Prop :=
  ∃ url front, urls.parse source.toList = .ok url ∧ url.segments? = some (front ++ [last]) ∧ last ≠ []

/-- Whether nothing of a segment is left for a name: its stem has only controls. -/
def IsNameless (last : List Char) : Prop :=
  ∃ stem, HasStem last stem ∧ ∀ c ∈ stem, isControl c = true

variable {urls : Url.Reader} {source : String} {last s : List Char}

lemma segment?_eq_some_iff : segment? source urls = some last ↔ EndsWith urls source last := by
  constructor
  · intro h
    rcases hread : urls.parse source.toList with refusal | url
    · rw [segment?_of_error hread] at h
      cases h
    rw [segment?_of_ok hread, Option.filter_eq_some_iff] at h
    obtain ⟨hlast, hsome⟩ := h
    rcases hsegments : url.segments? with _ | segs
    · rw [Url.lastSegment?, hsegments] at hlast
      cases hlast
    obtain ⟨front, final, rfl⟩ := exists_last hsegments
    rw [lastSegment?_of_concat hsegments] at hlast
    obtain rfl := Option.some.inj hlast
    exact ⟨url, front, hread, hsegments, by simpa using hsome⟩
  · rintro ⟨url, front, hread, hsegments, hsome⟩
    rw [segment?_of_ok hread, lastSegment?_of_concat hsegments, Option.filter_some, if_pos (by simpa)]

/-- Nothing is written for a name exactly if it has only controls. -/
lemma quotedName_eq_nil_iff : quotedName s = [] ↔ ∀ c ∈ s, isControl c = true := by
  rw [quotedName, List.flatMap_eq_nil_iff]
  refine forall₂_congr fun c _ => ?_
  split
  · next hmark =>
    rcases hmark with rfl | rfl
    · simp [isControl]
    · simp [isControl]
  · split
    · next hcontrol => simp [hcontrol]
    · next hcontrol => simp [hcontrol]

lemma isNameless_iff : IsNameless last ↔ quotedName (stem (unescaped last)) = [] := by
  simp only [IsNameless, hasStem_iff, exists_eq_left, quotedName_eq_nil_iff]

/-- The value suggests a name and an extension, with any reader of references. The name is the fixed one if
the source cannot be read, has no segments or ends with an empty one; otherwise it is what the last segment
has in front of its last dot, with the escapes undone and without controls. It is empty exactly if nothing of
the last segment is left. -/
theorem nameless_iff_of_value (urls : Url.Reader) (source : String) (format : Image.Format) :
    ∃ name : List Char,
      value source format urls =
        "inline; filename=\"".toList ++ name ++ '.' :: format.extension.toList ++ ['"'] ∧
      ((∀ last, ¬ EndsWith urls source last) → name = fallbackName) ∧
      (∀ last stem, EndsWith urls source last → HasStem last stem → name = quotedName stem) ∧
      (name = [] ↔ ∃ last, EndsWith urls source last ∧ IsNameless last) := by
  refine ⟨name source urls, ?_, fun hnone => ?_, fun last stem hlast hstem => ?_, ?_⟩
  · unfold value
    simp only [List.append_assoc, List.cons_append, List.nil_append]
  · have hsegment : segment? source urls = none :=
      Option.eq_none_iff_forall_ne_some.mpr fun last h => hnone last (segment?_eq_some_iff.mp h)
    rw [name, hsegment]
  · rw [name, segment?_eq_some_iff.mpr hlast, hasStem_iff.mp hstem]
  · unfold name
    rcases hsegment : segment? source urls with _ | last
    · constructor
      · intro h
        cases h
      · rintro ⟨last, hlast, -⟩
        rw [segment?_eq_some_iff.mpr hlast] at hsegment
        cases hsegment
    · have hlast := segment?_eq_some_iff.mp hsegment
      constructor
      · intro h
        exact ⟨last, hlast, isNameless_iff.mpr h⟩
      · rintro ⟨other, hother, hnameless⟩
        rw [segment?_eq_some_iff.mpr hother] at hsegment
        obtain rfl := Option.some.inj hsegment
        exact isNameless_iff.mp hnameless

/-- Nothing is left of a segment that is all extension, of one that is so when its escapes are undone, and of
one with a control in front of its dot. -/
theorem exists_nameless :
    value "http://x/.png" .png = "inline; filename=\".png\"".toList ∧
    value "http://x/%2Epng" .png = "inline; filename=\".png\"".toList ∧
    value "http://x/%0A.png" .png = "inline; filename=\".png\"".toList := by
  decide +kernel

end Gateway.Disposition
