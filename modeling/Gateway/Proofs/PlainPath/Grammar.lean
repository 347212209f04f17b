import Mathlib
import Gateway.PlainPath
import Gateway.Proofs.Encoder.Disposition

/-!
# The grammar of plain paths

A plain path holds the reference of a source and, perhaps, an `@` and the spelling of a format behind it
(`PlainPath.Asks`). The `@` occurs in references as well, before a host, in a path or in a query, so that it
is the spelling behind the last one which decides: no spelling has an `@` of its own, and a reference that
happens to end like one is cut there. The reader of paths accepts exactly this grammar, takes the source as
it is written, and refuses everything else as a path that names no source
(`PlainPath.parse_eq_ok_iff_asks`).
-/

namespace Gateway

namespace Image.Format

/-! ## Spellings -/

/-- The words for the formats, in small letters. -/
def words : List (String × Format) :=
  [("jpg", .jpeg), ("jpeg", .jpeg), ("png", .png), ("webp", .webp), ("gif", .gif), ("ico", .ico)]

/-- Whether a text spells a format, in any letter case. -/
def Spells (s : List Char) (f : Format) : Prop :=
  ∃ word, (word, f) ∈ words ∧ s.map Char.toLower = word.toList

variable {s : List Char} {f : Format}

/-- In small letters, a format is spelled by its name or its extension. -/
lemma ofLower?_eq_some_iff :
    ofLower? s = some f ↔ s = f.name.toList ∨ s = f.extension.toList := by
  constructor
  · intro h
    have hfound := List.find?_some h
    rw [Bool.or_eq_true, beq_iff_eq, beq_iff_eq] at hfound
    exact hfound.imp Eq.symm Eq.symm
  · rintro (rfl | rfl)
    · cases f <;> decide
    · cases f <;> decide

/-- The texts that spell a format are the ones in which it is found. -/
lemma ofSpelling?_eq_some_iff : ofSpelling? s = some f ↔ Spells s f := by
  rw [ofSpelling?, ofLower?_eq_some_iff, Spells]
  cases f <;> simp [words, name, extension, or_comm]

/-- A text spells one format only. -/
lemma Spells.unique {g : Format} (hf : Spells s f) (hg : Spells s g) : f = g := by
  rw [← ofSpelling?_eq_some_iff] at hf hg
  exact Option.some.inj (hf.symm.trans hg)

/-- No spelling has the mark that stands in front of it. -/
lemma Spells.mark_notMem (h : Spells s f) : '@' ∉ s := by
  intro hmem
  obtain ⟨word, hword, hs⟩ := h
  have hlower : '@' ∈ word.toList := hs ▸ List.mem_map_of_mem (f := Char.toLower) hmem
  have hnone : ∀ p ∈ words, '@' ∉ p.1.toList := by decide
  exact hnone _ hword hlower

end Image.Format

/-! ## Paths on their way to the reader -/

/-- A target that is written as a path arrives as it is written. A fragment would be dropped. -/
lemma Http.Target.eq_resource_of_parse? {s : String} {target : Http.Target}
    (hpath : s.toList.head? = some '/') (hfragment : '#' ∉ s.toList)
    (h : Http.Target.parse? s = some target) : target = .resource s := by
  obtain ⟨r, hr⟩ := List.head?_eq_some_iff.mp hpath
  have hwhole : beforeFragment ('/' :: r) = '/' :: r := by
    refine List.takeWhile_eq_self_iff.mpr fun c hc => ?_
    rw [bne_iff_ne]
    rintro rfl
    exact hfragment (hr ▸ hc)
  have hofPath : ofPath? ('/' :: r) = some target := by
    unfold parse? at h
    split at h
    · cases h
    · rwa [hr] at h
  simp only [ofPath?, hwhole] at hofPath
  obtain ⟨-, htarget⟩ := Option.ite_none_right_eq_some.mp hofPath
  rw [← Option.some.inj htarget, List.isEmpty_cons, if_neg Bool.false_ne_true, ← hr,
    String.ofList_toList]

namespace PlainPath

open Image (Format)
open Image.Format (Spells)

/-! ## The grammar -/

/-- Whether a reference is one of the web. -/
def IsOfWeb (url : Url) : Prop := url.scheme = "http".toList ∨ url.scheme = "https".toList

/-- Whether the last segment of a path has an extension: what follows its last dot. -/
def HasExtension (url : Url) (ext : List Char) : Prop :=
  ∃ front stem, url.segments? = some (front ++ [stem ++ '.' :: ext]) ∧ '.' ∉ ext

/-- The format that a source asks for by itself: the one that its extension spells, or else the usual
one. -/
inductive Names (url : Url) : Format → Prop where
  | extension {ext : List Char} {f : Format} (hext : HasExtension url ext) (hspells : Spells ext f) :
      Names url f
  | usual (h : ∀ ext f, HasExtension url ext → ¬ Spells ext f) : Names url .jpeg

/-- What a target asks for, if it is a plain path to a reader of references. -/
inductive Asks (urls : Url.Reader) : Http.Target → Parsed → Prop where
  /-- The reference of a source and the spelling of a format. -/
  | explicit {u e : String} {url : Url} {f : Format} (hread : urls.parse u.toList = .ok url)
      (hweb : IsOfWeb url) (hspells : Spells e.toList f) :
      Asks urls (.resource ("/plain/" ++ u ++ "@" ++ e))
        ⟨{ Image.Transform.standard with format := f }, u⟩
  /-- The reference of a source that does not end like that itself. -/
  | implicit {u : String} {url : Url} {f : Format} (hread : urls.parse u.toList = .ok url)
      (hweb : IsOfWeb url) (hplain : ∀ v e f, u = v ++ "@" ++ e → ¬ Spells e.toList f)
      (hnames : Names url f) :
      Asks urls (.resource ("/plain/" ++ u)) ⟨{ Image.Transform.standard with format := f }, u⟩

/-! ## The format at the end -/

section Reading

variable {s u e : List Char} {urls : Url.Reader} {url : Url} {f : Format} {p : Parsed}

/-- The spelling of a format is cut off the end. -/
lemma cutFormat_of_spells (h : Spells e f) : cutFormat (u ++ '@' :: e) = (u, some f) := by
  have hcut : Text.cutLast '@' (u ++ '@' :: e) = some (u, e) :=
    Text.cutLast_eq_some_iff.mpr ⟨rfl, h.mark_notMem⟩
  simp only [cutFormat, hcut, Format.ofSpelling?_eq_some_iff.mpr h]

/-- Nothing is cut off a text that does not end like that. -/
lemma cutFormat_of_not_spells (h : ∀ v e f, s = v ++ '@' :: e → ¬ Spells e f) :
    cutFormat s = (s, none) := by
  rcases hcut : Text.cutLast '@' s with _ | ⟨before, after⟩
  · simp only [cutFormat, hcut]
  · have hsource := (Text.cutLast_eq_some_iff.mp hcut).1
    have hspelling : Format.ofSpelling? after = none :=
      Option.eq_none_iff_forall_ne_some.mpr fun f hf =>
        h before after f hsource (Format.ofSpelling?_eq_some_iff.mp hf)
    simp only [cutFormat, hcut, hspelling]

/-! ## The format of a source -/

/-- The last segment is the last one of the segments. -/
lemma lastSegment?_eq_some_iff {last : List Char} :
    url.lastSegment? = some last ↔ ∃ front, url.segments? = some (front ++ [last]) := by
  constructor
  · intro h
    obtain ⟨segs, hsegments, -⟩ := Option.bind_eq_some_iff.mp h
    obtain ⟨front, other, rfl⟩ := Disposition.exists_last hsegments
    obtain rfl := Option.some.inj ((Disposition.lastSegment?_of_concat hsegments).symm.trans h)
    exact ⟨front, hsegments⟩
  · rintro ⟨front, hsegments⟩
    exact Disposition.lastSegment?_of_concat hsegments

/-- A source has the format that its extension spells. -/
lemma extensionFormat?_eq_some_iff :
    extensionFormat? url = some f ↔ ∃ ext, HasExtension url ext ∧ Spells ext f := by
  simp only [extensionFormat?, Option.bind_eq_some_iff, lastSegment?_eq_some_iff,
    Format.ofSpelling?_eq_some_iff, Prod.exists, Text.cutLast_eq_some_iff, HasExtension]
  constructor
  · rintro ⟨stem, ext, ⟨last, ⟨front, hsegments⟩, rfl, hext⟩, hspells⟩
    exact ⟨ext, ⟨front, stem, hsegments, hext⟩, hspells⟩
  · rintro ⟨ext, ⟨front, stem, hsegments, hext⟩, hspells⟩
    exact ⟨stem, ext, ⟨_, ⟨front, hsegments⟩, rfl, hext⟩, hspells⟩

/-- A source asks for the format of its extension, or else for the usual one. -/
lemma names_iff : Names url f ↔ f = (extensionFormat? url).getD .jpeg := by
  constructor
  · rintro (⟨hext, hspells⟩ | h)
    · rw [extensionFormat?_eq_some_iff.mpr ⟨_, hext, hspells⟩]
      rfl
    · have hnone : extensionFormat? url = none :=
        Option.eq_none_iff_forall_ne_some.mpr fun f hf => by
          obtain ⟨ext, hext, hspells⟩ := extensionFormat?_eq_some_iff.mp hf
          exact h ext f hext hspells
      rw [hnone]
      rfl
  · rintro rfl
    rcases hformat : extensionFormat? url with _ | f
    · refine .usual fun ext f hext hspells => ?_
      rw [extensionFormat?_eq_some_iff.mpr ⟨ext, hext, hspells⟩] at hformat
      cases hformat
    · obtain ⟨ext, hext, hspells⟩ := extensionFormat?_eq_some_iff.mp hformat
      exact .extension hext hspells

/-! ## What is read -/

lemma isWeb_iff : isWeb url = true ↔ IsOfWeb url := by
  rw [isWeb, Bool.or_eq_true, decide_eq_true_eq, decide_eq_true_eq, IsOfWeb]

/-- What is read of a source and the format behind it, if there is one. -/
lemma parseSource_eq_ok_iff {explicit : Option Format} (hcut : cutFormat s = (u, explicit)) :
    parseSource s urls = .ok p ↔ ∃ url, urls.parse u = .ok url ∧ IsOfWeb url ∧
      p = ⟨{ Image.Transform.standard with
        format := (explicit.orElse fun _ => extensionFormat? url).getD .jpeg }, String.ofList u⟩ := by
  rcases hread : urls.parse u with refusal | url
  · simp [parseSource, hcut, hread]
  · simp only [parseSource, hcut, hread, Except.ok.injEq, exists_eq_left']
    split
    · next hweb => simp [isWeb_iff.mp hweb, eq_comm]
    · next hweb => simp [mt isWeb_iff.mpr hweb]

/-- A source is only refused as one that is no source. -/
lemma exists_of_parseSource_error {failure : Failure} (h : parseSource s urls = .error failure) :
    ∃ message, failure = .parse message := by
  simp only [parseSource] at h
  split at h
  · exact ⟨_, (Except.error.inj h).symm⟩
  · split at h
    · cases h
    · exact ⟨_, (Except.error.inj h).symm⟩

/-- A target is only refused as one that names no source. -/
lemma exists_of_parse_error {target : Http.Target} {failure : Failure}
    (h : parse target urls = .error failure) : ∃ message, failure = .parse message := by
  simp only [parse] at h
  split at h
  · exact exists_of_parseSource_error h
  · exact ⟨_, (Except.error.inj h).symm⟩

/-- What is read of a target is what is read behind the mark of plain paths. -/
lemma parse_eq_ok_iff {target : Http.Target} : parse target urls = .ok p ↔
    ∃ text : String, target = .resource ("/plain/" ++ text) ∧ parseSource text.toList urls = .ok p := by
  have hmark : mark = "/plain/".toList := rfl
  constructor
  · intro h
    simp only [parse] at h
    rcases hraw : Text.afterStart mark (target.pathAndQuery?.getD "").toList with _ | raw
    · rw [hraw] at h
      cases h
    rw [hraw] at h
    have htext := Text.afterStart_eq_some_iff.mp hraw
    have hlist : (String.ofList raw).toList = raw := String.toList_ofList
    refine ⟨String.ofList raw, ?_, by rwa [hlist]⟩
    rcases target with _ | path
    · exact absurd htext.symm (List.cons_ne_nil _ _)
    · congr 1
      apply String.toList_inj.mp
      rw [String.toList_append, hlist, ← hmark]
      exact htext
  · rintro ⟨text, rfl, h⟩
    have hraw : Text.afterStart mark ("/plain/" ++ text).toList = some text.toList :=
      Text.afterStart_eq_some_iff.mpr (String.toList_append ..)
    simpa only [parse, Http.Target.pathAndQuery?, Option.getD_some, hraw] using h

/-! ## The grammar and the reader -/

/-- The reader accepts what the grammar says, and gets out of it what the grammar says. -/
lemma parse_eq_ok_iff_asks {target : Http.Target} : parse target urls = .ok p ↔ Asks urls target p := by
  rw [parse_eq_ok_iff]
  constructor
  · rintro ⟨text, rfl, h⟩
    by_cases hspelled : ∃ u e f, text.toList = u ++ '@' :: e ∧ Spells e f
    · obtain ⟨u, e, f, htext, hspells⟩ := hspelled
      rw [htext, parseSource_eq_ok_iff (cutFormat_of_spells hspells)] at h
      obtain ⟨url, hread, hweb, rfl⟩ := h
      have hstring : "/plain/" ++ text = "/plain/" ++ String.ofList u ++ "@" ++ String.ofList e := by
        apply String.toList_inj.mp
        simp [htext]
      rw [hstring]
      exact .explicit (by rwa [String.toList_ofList]) hweb (by rwa [String.toList_ofList])
    · have hplain : ∀ v e f, text.toList = v ++ '@' :: e → ¬ Spells e f :=
        fun v e f htext hspells => hspelled ⟨v, e, f, htext, hspells⟩
      rw [parseSource_eq_ok_iff (cutFormat_of_not_spells hplain)] at h
      obtain ⟨url, hread, hweb, rfl⟩ := h
      rw [String.ofList_toList]
      refine .implicit hread hweb (fun v e f htext => ?_) (names_iff.mpr rfl)
      exact hplain v.toList e.toList f (by simp [htext])
  · rintro (⟨hread, hweb, hspells⟩ | ⟨hread, hweb, hplain, hnames⟩)
    · next u e url f =>
      refine ⟨u ++ "@" ++ e, by rw [String.append_assoc, String.append_assoc, String.append_assoc], ?_⟩
      have htext : (u ++ "@" ++ e).toList = u.toList ++ '@' :: e.toList := by simp
      rw [htext, parseSource_eq_ok_iff (cutFormat_of_spells hspells)]
      exact ⟨url, hread, hweb, by rw [String.ofList_toList]; rfl⟩
    · next u url f =>
      have hnot : ∀ v e f, u.toList = v ++ '@' :: e → ¬ Spells e f := by
        intro v e f htext hspells
        refine hplain (String.ofList v) (String.ofList e) f ?_ (by rwa [String.toList_ofList])
        apply String.toList_inj.mp
        simp [htext]
      refine ⟨u, rfl, ?_⟩
      rw [parseSource_eq_ok_iff (cutFormat_of_not_spells hnot)]
      exact ⟨url, hread, hweb, by rw [String.ofList_toList, names_iff.mp hnames]; rfl⟩

/-- With any reader of references, the reader of plain paths accepts exactly its grammar: it gets the source
as it is written and the format that is asked for, and leaves all else as it is by default. Every other
target is refused, always as one that names no source. A path without a fragment reaches the reader as it is
written. -/
theorem grammatical_parse (urls : Url.Reader) :
    (∀ target p, parse target urls = .ok p ↔ Asks urls target p) ∧
    (∀ target, (∀ p, ¬ Asks urls target p) ↔ ∃ failure, parse target urls = .error failure ∧
      failure.kind = .parse ∧ failure.status.code = 404 ∧ failure.publicMessage = "Invalid URL") ∧
    ∀ s target, s.toList.head? = some '/' → '#' ∉ s.toList → Http.Target.parse? s = some target →
      target = .resource s := by
  refine ⟨fun _ _ => parse_eq_ok_iff_asks, fun target => ?_,
    fun _ _ => Http.Target.eq_resource_of_parse?⟩
  constructor
  · intro hnone
    rcases h : parse target urls with failure | p
    · obtain ⟨message, rfl⟩ := exists_of_parse_error h
      exact ⟨_, rfl, rfl, rfl, rfl⟩
    · exact absurd (parse_eq_ok_iff_asks.mp h) (hnone p)
  · rintro ⟨failure, h, -⟩ p hasks
    rw [parse_eq_ok_iff_asks.mpr hasks] at h
    cases h

end Reading

/-- The address of a source with a user, a directory and a query that have the mark of a format. -/
def markedSource : String := "http://u@h/a@gif/b.webp?c=@png"

/-- A path with that address and a format behind it. -/
def markedPath : String := "/plain/" ++ markedSource ++ "@" ++ "JpG"

theorem grammatical_markedPath :
    markedPath.toList.head? = some '/' ∧ '#' ∉ markedPath.toList ∧
      Http.Target.parse? markedPath = some (.resource markedPath) ∧
      parse (.resource markedPath) =
        .ok ⟨{ Image.Transform.standard with format := .jpeg }, markedSource⟩ ∧
      ∀ target, Http.Target.parse? markedPath = some target → target = .resource markedPath := by
  have hpath : markedPath.toList.head? = some '/' := by decide +kernel
  have hfragment : '#' ∉ markedPath.toList := by decide +kernel
  have htarget : Http.Target.parse? markedPath = some (.resource markedPath) := by decide +kernel
  obtain ⟨url, hread, hweb⟩ : ∃ url, Url.parse markedSource.toList = .ok url ∧ IsOfWeb url := by
    rcases hread : Url.parse markedSource.toList with refusal | url
    · have hok : (Url.parse markedSource.toList).isOk = true := by decide +kernel
      rw [hread] at hok
      cases hok
    · have hscheme : (Url.parse markedSource.toList).toOption.map Url.scheme =
          some "http".toList := by decide +kernel
      rw [hread] at hscheme
      exact ⟨url, rfl, .inl (Option.some.inj hscheme)⟩
  have hspells : Image.Format.Spells "JpG".toList .jpeg :=
    ⟨"jpg", List.mem_cons_self, by decide +kernel⟩
  obtain ⟨hexact, -, harrives⟩ := grammatical_parse Url.reader
  exact ⟨hpath, hfragment, htarget, (hexact _ _).mpr (.explicit hread hweb hspells),
    fun target => harrives _ _ hpath hfragment⟩

end PlainPath

end Gateway
