import Mathlib
import Gateway.Http.Date
import Gateway.Proofs.Text.Digits

/-!
# Dates and the calendar

The day after a number of days is computed at once, by dividing (`Http.Date.ofDays`). It is the one that is
reached by going through the calendar day by day (`Http.Date.ofDays_eq_iterate`), where a month has the
length that everybody knows and February one day more in a leap year.

The computation counts years from March, so that a leap day comes last and the days of a year are laid out
in the same way in every year. The day on which such a year starts is `marchStart`, and a day is found by
its year and its place in it (`Http.Date.exists_marchStart`, `Http.Date.ofDays_eq`). The text of an instant
up to the end of the year 9999 has the fixed form of dates in header fields
(`Http.Date.isDateOf_text`).
-/

namespace Gateway

namespace Http.Date

/-! ## The calendar -/

/-- Whether a year has a leap day. -/
def IsLeap (year : ℕ) : Prop := 4 ∣ year ∧ (100 ∣ year → 400 ∣ year)

instance : DecidablePred IsLeap := fun year => inferInstanceAs (Decidable (4 ∣ year ∧ _))

/-- The number of days of a month, in a leap year or in another one. -/
def monthLength (isLeap : Bool) (month : ℕ) : ℕ :=
  if month = 2 then if isLeap then 29 else 28
  else if month ∈ [4, 6, 9, 11] then 30
  else 31

/-- The first day of the calendar. -/
def firstDay : Day := ⟨1970, 1, 1⟩

/-- The day after a day. -/
def Day.next (d : Day) : Day :=
  if d.day < monthLength (decide (IsLeap d.year)) d.month then { d with day := d.day + 1 }
  else if d.month < 12 then ⟨d.year, d.month + 1, 1⟩
  else ⟨d.year + 1, 1, 1⟩

/-! ## Years that start in March -/

/-- The number of days from the first of March of the year zero to the one of a year. -/
def marchStart (year : ℕ) : ℕ := 365 * year + year / 4 - year / 100 + year / 400

/-- The number of days from the first of March of a year to the next one. -/
def marchLength (year : ℕ) : ℕ := if IsLeap (year + 1) then 366 else 365

/-- The month of a place in a year that starts in March. Five months in a row have 153 days. -/
def marchMonth (place : ℕ) : ℕ :=
  let march := (5 * place + 2) / 153
  if march < 10 then march + 3 else march - 9

/-- The day of the month of a place in a year that starts in March. -/
def marchDate (place : ℕ) : ℕ := place - (153 * ((5 * place + 2) / 153) + 2) / 5 + 1

/-- The day at a place in a year that starts in March: its last two months belong to the next year. -/
def marchDay (year place : ℕ) : Day :=
  ⟨if marchMonth place ≤ 2 then year + 1 else year, marchMonth place, marchDate place⟩

section March

variable {days year place : ℕ}

lemma marchStart_succ (year : ℕ) : marchStart (year + 1) = marchStart year + marchLength year := by
  have hcentury : 100 ∣ year + 1 → 4 ∣ year + 1 := dvd_trans (by decide)
  have hera : 400 ∣ year + 1 → 100 ∣ year + 1 := dvd_trans (by decide)
  have hle : year / 100 ≤ year / 4 := Nat.div_le_div_left (by decide) (by decide)
  simp only [marchStart, marchLength, IsLeap, Nat.succ_div]
  by_cases h400 : 400 ∣ year + 1
  · simp only [h400, hera h400, hcentury (hera h400), if_true, and_true, imp_true_iff]
    omega
  by_cases h100 : 100 ∣ year + 1
  · simp only [h400, h100, hcentury h100, if_true, if_false, true_imp_iff, and_false]
    omega
  by_cases h4 : 4 ∣ year + 1
  · simp only [h400, h100, h4, if_true, if_false, false_imp_iff, and_true]
    omega
  · simp only [h400, h100, h4, if_false, false_and]
    omega

/-- Every day has a place in a year. -/
lemma exists_marchStart (days : ℕ) :
    ∃ year place, days = marchStart year + place ∧ place < marchLength year := by
  induction days with
  | zero => exact ⟨0, 0, rfl, by decide⟩
  | succ days ih =>
    obtain ⟨year, place, rfl, hplace⟩ := ih
    rcases Nat.lt_or_ge (place + 1) (marchLength year) with hnext | hlast
    · exact ⟨year, place + 1, by omega, hnext⟩
    · refine ⟨year + 1, 0, ?_, by unfold marchLength; split <;> omega⟩
      rw [marchStart_succ]
      omega

/-- The year of an era that the division finds, from the parts of an era: centuries, groups of four years,
and years. -/
lemma yearOfEra_eq {century group odd place n : ℕ} (hcentury : century < 4) (hgroup : group < 25)
    (hodd : odd < 4)
    (hplace : place < 365 ∨ (place = 365 ∧ odd = 3 ∧ (group < 24 ∨ century = 3)))
    (hn : n = 36524 * century + 1461 * group + 365 * odd + place) :
    (n - n / 1460 + n / 36524 - n / 146096) / 365 = 100 * century + 4 * group + odd := by
  rcases Nat.lt_or_ge n 146096 with hinner | hlast
  · have hcenturies : n / 36524 = century := by omega
    have hgroups : n / 1460 =
        25 * century + group + (24 * century + group + 365 * odd + place) / 1460 := by omega
    have hera : n / 146096 = 0 := by omega
    have hover : (24 * century + group + 365 * odd + place) / 1460 =
        if 1460 ≤ 24 * century + group + 365 * odd + place then 1 else 0 := by
      split <;> omega
    rw [hcenturies, hgroups, hera, hover]
    split <;> omega
  · obtain ⟨rfl, rfl, rfl, rfl⟩ : century = 3 ∧ group = 24 ∧ odd = 3 ∧ place = 365 := by omega
    rw [hn]

/-- The first of March of a year, from the parts of its era. -/
lemma marchStart_era {era century group odd : ℕ} (hcentury : century < 4) (hgroup : group < 25)
    (hodd : odd < 4) :
    marchStart (400 * era + (100 * century + 4 * group + odd)) =
      146097 * era + (36524 * century + 1461 * group + 365 * odd) := by
  unfold marchStart
  omega

/-- The leap days, from the parts of an era. -/
lemma isLeap_era {era century group odd : ℕ} (hcentury : century < 4) (hgroup : group < 25)
    (hodd : odd < 4) : IsLeap (400 * era + (100 * century + 4 * group + odd) + 1) ↔
      odd = 3 ∧ (group < 24 ∨ century = 3) := by
  have h4 : 4 ∣ 400 * era + (100 * century + 4 * group + odd) + 1 ↔ odd = 3 := by omega
  have h100 : 100 ∣ 400 * era + (100 * century + 4 * group + odd) + 1 ↔ odd = 3 ∧ group = 24 := by
    omega
  have h400 : 400 ∣ 400 * era + (100 * century + 4 * group + odd) + 1 ↔
      odd = 3 ∧ group = 24 ∧ century = 3 := by omega
  rw [IsLeap, h4, h100, h400]
  omega

/-- The day that the division finds is the one at its place in its year. -/
lemma ofDays_eq (h : days + 719468 = marchStart year + place) (hplace : place < marchLength year) :
    ofDays days = marchDay year place := by
  -- the year in an era of 400 years, in a century, and in a group of four
  obtain ⟨era, century, group, odd, rfl, hcentury, hgroup, hodd⟩ :
      ∃ era century group odd, year = 400 * era + (100 * century + 4 * group + odd) ∧
        century < 4 ∧ group < 25 ∧ odd < 4 :=
    ⟨year / 400, year % 400 / 100, year % 100 / 4, year % 4, by omega, by omega, by omega, by omega⟩
  have hlength : place < 365 ∨ (place = 365 ∧ odd = 3 ∧ (group < 24 ∨ century = 3)) := by
    simp only [marchLength, isLeap_era hcentury hgroup hodd] at hplace
    split at hplace
    · omega
    · omega
  rw [marchStart_era hcentury hgroup hodd] at h
  set n := 36524 * century + 1461 * group + 365 * odd + place with hn
  have hera : (days + 719468) / 146097 = era := by omega
  have hrest : (days + 719468) % 146097 = n := by omega
  have hdayOfYear : n - (365 * (100 * century + 4 * group + odd) +
      (100 * century + 4 * group + odd) / 4 - (100 * century + 4 * group + odd) / 100) = place := by
    have hgroups : (100 * century + 4 * group + odd) / 4 = 25 * century + group := by omega
    have hcenturies : (100 * century + 4 * group + odd) / 100 = century := by omega
    rw [hgroups, hcenturies]
    omega
  have hyear : 100 * century + 4 * group + odd + era * 400 =
      400 * era + (100 * century + 4 * group + odd) := by omega
  have hday : ofDays days = ⟨400 * era + (100 * century + 4 * group + odd) +
      if marchMonth place ≤ 2 then 1 else 0, marchMonth place, marchDate place⟩ := by
    simp only [ofDays, hera, hrest, yearOfEra_eq hcentury hgroup hodd hlength hn, hdayOfYear, hyear]
    rfl
  rw [hday, marchDay, add_ite, add_zero]

/-! ## From day to day -/

/-- The days of a year that starts in March follow each other in the same way in every year, but for the
leap day at the end. -/
lemma march_table : ∀ isLeap : Bool, ∀ place < if isLeap then 365 else 364,
    (marchDate place < monthLength isLeap (marchMonth place) ∧
      marchMonth (place + 1) = marchMonth place ∧ marchDate (place + 1) = marchDate place + 1) ∨
    (marchDate place = monthLength isLeap (marchMonth place) ∧ marchDate (place + 1) = 1 ∧
      ((marchMonth place < 12 ∧ 2 < marchMonth place ∧
          marchMonth (place + 1) = marchMonth place + 1) ∨
        (marchMonth place = 12 ∧ marchMonth (place + 1) = 1) ∨
        (marchMonth place = 1 ∧ marchMonth (place + 1) = 2))) := by
  decide +kernel

lemma monthLength_of_ne {month : ℕ} (hmonth : month ≠ 2) (isLeap isLeap' : Bool) :
    monthLength isLeap month = monthLength isLeap' month := by
  rw [monthLength, monthLength, if_neg hmonth, if_neg hmonth]

/-- The length of the month of a place: February belongs to the next year. -/
lemma monthLength_marchDay (year place : ℕ) :
    monthLength (decide (IsLeap (marchDay year place).year)) (marchDay year place).month =
      monthLength (decide (IsLeap (year + 1))) (marchMonth place) := by
  by_cases hmonth : marchMonth place ≤ 2
  · simp only [marchDay, hmonth, if_true]
  · have hother : marchMonth place ≠ 2 := by omega
    simp only [marchDay, monthLength_of_ne hother _ (decide (IsLeap (year + 1)))]

/-- Within a year, the place after a place is the one of the next day. The leap day is the last place. -/
lemma next_marchDay (hnext : place + 1 < marchLength year) :
    (marchDay year place).next = marchDay year (place + 1) := by
  have hplace : place < if decide (IsLeap (year + 1)) then 365 else 364 := by
    simp only [marchLength] at hnext
    simp only [decide_eq_true_eq]
    split at hnext
    · next hleap => simpa only [if_pos hleap] using Nat.lt_of_succ_lt_succ hnext
    · next hleap => simpa only [if_neg hleap] using Nat.lt_of_succ_lt_succ hnext
  have hday : (marchDay year place).day = marchDate place := rfl
  rw [Day.next, monthLength_marchDay, hday]
  rcases march_table _ place hplace with ⟨hinner, hmonth, hdate⟩ | ⟨hend, hdate, hturn⟩
  · rw [if_pos hinner]
    simp only [marchDay, hmonth, hdate]
  · rw [if_neg (Nat.not_lt_of_ge hend.ge)]
    rcases hturn with ⟨hbefore, hlate, hmonth⟩ | ⟨hmonth, hnextMonth⟩ | ⟨hmonth, hnextMonth⟩
    · have hsame : ¬ marchMonth place ≤ 2 ∧ ¬ marchMonth place + 1 ≤ 2 := by omega
      simp only [marchDay, hbefore, if_true, hmonth, hdate, hsame, if_false]
    · simp [marchDay, hmonth, hnextMonth, hdate]
    · simp [marchDay, hmonth, hnextMonth, hdate]

/-- After the last place of a year the next year starts. -/
lemma next_marchDay_of_last (hlast : place + 1 = marchLength year) :
    (marchDay year place).next = marchDay (year + 1) 0 := by
  have hend : marchMonth place = 2 ∧
      marchDate place = monthLength (decide (IsLeap (year + 1))) (marchMonth place) := by
    unfold marchLength at hlast
    split at hlast
    · next hleap =>
      obtain rfl : place = 365 := by omega
      rw [decide_eq_true hleap]
      decide
    · next hleap =>
      obtain rfl : place = 364 := by omega
      rw [decide_eq_false hleap]
      decide
  have hfirst : marchMonth 0 = 3 ∧ marchDate 0 = 1 := by decide
  have hday : (marchDay year place).day = marchDate place := rfl
  rw [Day.next, monthLength_marchDay, hday, if_neg (Nat.not_lt_of_ge hend.2.ge)]
  simp [marchDay, hend.1, hfirst]

/-- The next day is the day after one day more. -/
lemma ofDays_succ (days : ℕ) : ofDays (days + 1) = (ofDays days).next := by
  obtain ⟨year, place, hday, hplace⟩ := exists_marchStart (days + 719468)
  rw [ofDays_eq hday hplace]
  rcases Nat.lt_or_ge (place + 1) (marchLength year) with hnext | hlast
  · rw [next_marchDay hnext, ofDays_eq (by omega) hnext]
  · have hfirst : 0 < marchLength (year + 1) := by
      unfold marchLength
      split
      · decide
      · decide
    have hstart := marchStart_succ year
    rw [next_marchDay_of_last (by omega), ofDays_eq (by omega) hfirst]

/-- The day that the division finds is reached by going through the calendar day by day. -/
theorem ofDays_eq_iterate (days : ℕ) : ofDays days = Day.next^[days] firstDay := by
  induction days with
  | zero => decide
  | succ days ih => rw [ofDays_succ, ih, Function.iterate_succ_apply']

end March

/-! ## Texts of instants -/

/-- Whether a text is the date of an instant: the day of the week, the day of the calendar and the time of
day, each in a fixed width. -/
inductive IsDateOf : List Char → ℕ → Prop where
  | written {seconds days hour minute second : ℕ} {date : Day} {weekday month : String}
      {dd yyyy hh mm ss : List Char}
      (hinstant : seconds = ((days * 24 + hour) * 60 + minute) * 60 + second)
      (hhour : hour < 24) (hminute : minute < 60) (hsecond : second < 60)
      (hdate : date = Day.next^[days] firstDay)
      (hweekday : dayNames[days % 7]? = some weekday)
      (hmonth : monthNames[date.month - 1]? = some month)
      (hdd : Text.IsNumeral 2 date.day dd) (hyyyy : Text.IsNumeral 4 date.year yyyy)
      (hhh : Text.IsNumeral 2 hour hh) (hmm : Text.IsNumeral 2 minute mm)
      (hss : Text.IsNumeral 2 second ss) :
      IsDateOf (weekday.toList ++ ", ".toList ++ dd ++ " ".toList ++ month.toList ++ " ".toList ++
        yyyy ++ " ".toList ++ hh ++ ":".toList ++ mm ++ ":".toList ++ ss ++ " GMT".toList) seconds

/-- The last day has a year of four digits, and so has every day before it. -/
lemma ofDays_bounds {days : ℕ} (h : days ≤ last / 86400) :
    (ofDays days).year ≤ 9999 ∧ (0 < (ofDays days).month ∧ (ofDays days).month ≤ 12) ∧
      (ofDays days).day ≤ 31 := by
  obtain ⟨year, place, hday, hplace⟩ := exists_marchStart (days + 719468)
  have hlength : place < 366 := by
    unfold marchLength at hplace
    split at hplace
    · exact hplace
    · exact hplace.trans (by decide)
  have hstart : marchStart year + place ≤ 3652364 := by
    have hlast : last / 86400 = 2932896 := by decide
    omega
  -- the last year ends with December, since what follows belongs to the year after it
  have hyear : year < 9999 ∨ year = 9999 ∧ place < 306 := by
    unfold marchStart at hstart
    omega
  have hmonth : 0 < marchMonth place ∧ marchMonth place ≤ 12 ∧
      (place < 306 → 2 < marchMonth place) := by
    simp only [marchMonth]
    split <;> omega
  rw [ofDays_eq hday hplace]
  refine ⟨?_, ⟨hmonth.1, hmonth.2.1⟩, ?_⟩
  · change (if marchMonth place ≤ 2 then year + 1 else year) ≤ 9999
    split <;> omega
  · change marchDate place ≤ 31
    unfold marchDate
    omega

/-- The parts of the text of an instant. -/
lemma toList_text {seconds : ℕ} {weekday month : String}
    (hweekday : dayNames[seconds / 86400 % 7]? = some weekday)
    (hmonth : monthNames[(ofDays (seconds / 86400)).month - 1]? = some month) :
    (text seconds).toList = weekday.toList ++ ", ".toList ++
      Text.padded 10 2 (ofDays (seconds / 86400)).day ++ " ".toList ++ month.toList ++ " ".toList ++
      Text.padded 10 4 (ofDays (seconds / 86400)).year ++ " ".toList ++
      Text.padded 10 2 (seconds % 86400 / 3600) ++ ":".toList ++
      Text.padded 10 2 (seconds % 86400 / 60 % 60) ++ ":".toList ++
      Text.padded 10 2 (seconds % 86400 % 60) ++ " GMT".toList := by
  rw [text, hweekday, hmonth]
  simp only [two, Option.getD_some, String.toList_append, String.toList_ofList]

/-- The text of an instant up to the last one is its date. -/
theorem isDateOf_text {seconds : ℕ} (h : seconds ≤ last) : IsDateOf (text seconds).toList seconds := by
  have hlast : seconds / 86400 ≤ last / 86400 := Nat.div_le_div_right h
  obtain ⟨hyear, ⟨hpos, hmonth⟩, hday⟩ := ofDays_bounds hlast
  obtain ⟨weekday, hweekday⟩ : ∃ name, dayNames[seconds / 86400 % 7]? = some name :=
    ⟨_, List.getElem?_eq_getElem (Nat.mod_lt _ (by decide))⟩
  have hindex : (ofDays (seconds / 86400)).month - 1 < monthNames.length :=
    Nat.sub_one_lt_of_le hpos hmonth
  obtain ⟨month, hname⟩ : ∃ name, monthNames[(ofDays (seconds / 86400)).month - 1]? = some name :=
    ⟨_, List.getElem?_eq_getElem hindex⟩
  have htwo {n : ℕ} (hn : n < 100) : Text.IsNumeral 2 n (Text.padded 10 2 n) :=
    Text.isNumeral_padded (by decide) hn
  have hfour {n : ℕ} (hn : n < 10000) : Text.IsNumeral 4 n (Text.padded 10 4 n) :=
    Text.isNumeral_padded (by decide) hn
  have hinstant : seconds = ((seconds / 86400 * 24 + seconds % 86400 / 3600) * 60 +
      seconds % 86400 / 60 % 60) * 60 + seconds % 86400 % 60 := by
    omega
  rw [toList_text hweekday hname]
  refine .written hinstant ?_ ?_ ?_ (ofDays_eq_iterate _) hweekday hname (htwo ?_) (hfour ?_)
    (htwo ?_) (htwo ?_) (htwo ?_)
  all_goals omega

example : text 784111777 = "Sun, 06 Nov 1994 08:49:37 GMT" := by decide +kernel

example : text last = "Fri, 31 Dec 9999 23:59:59 GMT" := by decide +kernel

end Http.Date

end Gateway
