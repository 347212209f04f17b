import Mathlib
import Gateway.Proofs.Http.Value

/-!
# The permission in the fields of a response

A permission for another origin consists of two fields, the origin and the methods. Putting it in changes
no other field (`Access.CrossOrigin.others_apply`), and what it amounts to is decided by the configured
origin alone (`Access.CrossOrigin.grants_apply`): each of the two fields is there exactly once if the
origin is a nonempty legal field value, and neither is if it is not.
-/

namespace Gateway.Access.CrossOrigin

variable {c : CrossOrigin} {fs : Http.Fields} {origin : Option String}

/-- The names of the fields that a permission consists of. -/
def fieldNames : List String := ["access-control-allow-origin", "access-control-allow-methods"]

/-- Whether fields hold no part of a permission. -/
def Free (fs : Http.Fields) : Prop := ∀ f ∈ fs, f.1 ∉ fieldNames

/-- The fields that belong to no permission. -/
def others (fs : Http.Fields) : Http.Fields := fs.filter fun f => f.1 ∉ fieldNames

/-- Replacing a field of a permission leaves the other fields as they are. -/
lemma others_replace {name : String} (hname : name ∈ fieldNames) (v : Bytes) (fs : Http.Fields) :
    others (Http.Fields.replace name v fs) = others fs := by
  have hwithout : others (Http.Fields.without name fs) = others fs := by
    rw [others, others, Http.Fields.without, List.filter_filter]
    refine List.filter_congr ?_
    intro f _
    by_cases hf : f.1 = name
    · simp [hf, hname]
    · simp [hf]
  have hfield : others [(name, v)] = [] := by
    simp [others, hname]
  rw [Http.Fields.replace, others, List.filter_append]
  change others (Http.Fields.without name fs) ++ others [(name, v)] = others fs
  rw [hwithout, hfield, List.append_nil]

/-- Putting in a permission leaves the other fields as they are. -/
lemma others_apply (c : CrossOrigin) (fs : Http.Fields) : others (c.apply fs) = others fs := by
  unfold apply
  split
  · rfl
  · rw [others_replace (by simp [fieldNames]), others_replace (by simp [fieldNames])]

/-- Without a permission the fields stay as they are. -/
lemma apply_of_none (h : c.origin = none) (fs : Http.Fields) : c.apply fs = fs := by
  simp only [apply, h]

/-- A permission is put in once. -/
lemma values_apply_of_some {o : Bytes} (h : c.origin = some o) (fs : Http.Fields) :
    Http.Fields.values "access-control-allow-origin" (c.apply fs) = [o] ∧
      Http.Fields.values "access-control-allow-methods" (c.apply fs) = [allowedMethods] := by
  simp only [apply, h]
  constructor
  · rw [Http.Fields.values_replace_of_ne (by decide)]
    exact Http.Fields.values_replace_self
  · exact Http.Fields.values_replace_self

/-- Fields without a permission have no values for its names. -/
lemma Free.values_eq_nil (hfree : Free fs) {name : String} (hname : name ∈ fieldNames) :
    Http.Fields.values name fs = [] := by
  rw [List.eq_nil_iff_forall_not_mem]
  intro v hv
  exact hfree (name, v) (Http.Fields.mem_values.mp hv) hname

/-- Whether a configured origin can be named in a response: it is not empty and a legal field value. -/
def Nameable (origin : Option String) (o : String) : Prop :=
  origin = some o ∧ o ≠ "" ∧ Http.isValue (Utf8.ofString o) = true

/-- A configured origin that can be named is named by its bytes. -/
lemma origin_of_nameable {o : String} (h : Nameable origin o) :
    (ofConfig origin).origin = some (Utf8.ofString o) := by
  obtain ⟨rfl, hne, hvalue⟩ := h
  simp [ofConfig, Option.filter, hne, hvalue]

/-- Without a configured origin that can be named there is no permission. -/
lemma origin_of_not_nameable (h : ∀ o, ¬ Nameable origin o) : (ofConfig origin).origin = none := by
  rcases origin with _ | o
  · rfl
  · by_cases hne : o = ""
    · simp [ofConfig, Option.filter, hne]
    · have hvalue : Http.isValue (Utf8.ofString o) = false := by
        rw [← Bool.not_eq_true]
        intro hvalue
        exact h o ⟨rfl, hne, hvalue⟩
      simp [ofConfig, Option.filter, hne, hvalue]

/-- What the fields of a response say about a configured origin: that it has the permission, once, if it
can be named, and nothing if it cannot. -/
structure Grants (origin : Option String) (fs : Http.Fields) : Prop where
  named : ∀ o, Nameable origin o →
    Http.Fields.values "access-control-allow-origin" fs = [Utf8.ofString o] ∧
      Http.Fields.values "access-control-allow-methods" fs = [Utf8.ofString "GET, OPTIONS"]
  unnamed : (∀ o, ¬ Nameable origin o) →
    Http.Fields.values "access-control-allow-origin" fs = [] ∧
      Http.Fields.values "access-control-allow-methods" fs = []

/-- The permission of a configured origin is all that fields say about it. -/
lemma grants_apply (hfree : Free fs) : Grants origin ((ofConfig origin).apply fs) where
  named o ho := values_apply_of_some (origin_of_nameable ho) fs
  unnamed hnone := by
    rw [apply_of_none (origin_of_not_nameable hnone)]
    exact ⟨hfree.values_eq_nil (by simp [fieldNames]), hfree.values_eq_nil (by simp [fieldNames])⟩

end Gateway.Access.CrossOrigin
