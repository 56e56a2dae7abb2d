import Capsule.Proofs.Json.Naturals
import Capsule.Proofs.Time.Calendar
import Capsule.Report

/-!
# Times as they are read

A time is shown as a date and a time of the day, and this file reads it back: the fields are cut out
of the text, the date must be one of the Gregorian calendar, and its days are counted
(`Report.second?`). What comes back is the second that was shown, whatever the time.

## Three limits

No time is shown for zero, for a number of microseconds that is no time at all, and for what lies
beyond the last year. The second limit is never the one that decides: it is beyond the last year by
itself. So what is shown is bounded by the calendar alone, and the last second that is shown is the
last one of that year.

## Main definitions

* `Report.second?`: the second that is read of a time
* `Report.lastSecond`: the last second that is shown

## Main results

* `Report.second?_text`: a moment is read as its second
* `Report.time_eq_dash_iff`: the times that are not shown
* `Report.times_by_second`
-/

namespace Capsule

/-! ### Fields of digits -/

variable {width n : ℕ}

theorem toList_padded (width n : ℕ) : (padded width n).toList =
    List.replicate (width - (Json.natChars n).length) '0' ++ Json.natChars n :=
  String.toList_ofList ..

theorem notMem_padded {c : Char} (h : c.isDigit = false) : c ∉ (padded width n).toList := by
  rw [toList_padded, List.mem_append, List.mem_replicate]
  rintro (⟨-, rfl⟩ | hc)
  · cases h
  · exact Numeral.notMem_natChars h hc

theorem ofDigits?_padded (width n : ℕ) :
    Numeral.ofDigits? (padded width n).toList = some n := by
  rw [toList_padded, Numeral.ofDigits?_zeros]

theorem length_padded (hwidth : 0 < width) (h : n < 10 ^ width) :
    (padded width n).toList.length = width := by
  have hlength : (Json.natChars n).length ≤ width :=
    (Nat.length_toDigits_le_iff (by norm_num) hwidth).mpr h
  rw [toList_padded, List.length_append, List.length_replicate]
  omega

namespace Report

/-! ### Reading a time -/

/-- A field of so many digits. -/
def field? (width : ℕ) (cs : List Char) : Option ℕ :=
  if cs.length = width then Numeral.ofDigits? cs else none

/-- A year has four digits, or a sign and more. -/
def year? : List Char → Option ℕ
  | '+' :: cs => (Numeral.ofDigits? cs).filter (9999 < ·)
  | cs => field? 4 cs

/-- The day of a date, counted from the beginning of 1970. -/
def day? (cs : List Char) : Option ℕ :=
  match cs.splitOn '-' with
  | [year, month, day] => do
    let y ← year? year
    let m ← field? 2 month
    let d ← field? 2 day
    if Calendar.IsDate y m d then some (Calendar.daysBefore y m d) else none
  | _ => none

/-- The second of a time of the day. -/
def clock? (cs : List Char) : Option ℕ :=
  match cs.splitOn ':' with
  | [hour, minute, second] => do
    let h ← field? 2 hour
    let m ← field? 2 minute
    let s ← field? 2 second
    if h < 24 ∧ m < 60 ∧ s < 60 then some (3600 * h + 60 * m + s) else none
  | _ => none

/-- The second that is read of a time, counted from the beginning of 1970. -/
def second? (text : String) : Option ℕ :=
  match text.toList.splitOn ' ' with
  | [date, clock, zone] => do
    let days ← day? date
    let seconds ← clock? clock
    if zone = ['U', 'T', 'C'] then some (86400 * days + seconds) else none
  | _ => none

theorem splitOn_triple {sep : Char} {first second third : List Char} (hfirst : sep ∉ first)
    (hsecond : sep ∉ second) (hthird : sep ∉ third) :
    (first ++ sep :: (second ++ sep :: third)).splitOn sep = [first, second, third] := by
  rw [List.splitOn_append_cons_self_of_not_mem hfirst,
    List.splitOn_append_cons_self_of_not_mem hsecond, List.splitOn_eq_singleton hthird]

theorem field?_padded (hwidth : 0 < width) (h : n < 10 ^ width) :
    field? width (padded width n).toList = some n := by
  rw [field?, if_pos (length_padded hwidth h), ofDigits?_padded]

variable {year month day : ℕ}

theorem year?_yearText (year : ℕ) : year? (Date.yearText year).toList = some year := by
  rw [Date.yearText]
  split
  · rename_i h
    have hshort : year < 10 ^ 4 := by omega
    rw [Int.toNat_natCast, year?]
    · exact field?_padded (by norm_num) hshort
    · intro cs hcs
      have hplus : '+' ∈ (padded 4 year).toList := hcs ▸ List.mem_cons_self
      exact notMem_padded (by decide) hplus
  · rename_i h
    have hlong : 9999 < year := by omega
    have htext : (if (year : ℤ) < 0 then "-" else "+") = "+" := if_neg (by omega)
    rw [htext, String.toList_append, Int.natAbs_natCast]
    show (Numeral.ofDigits? (padded 4 year).toList).filter (9999 < ·) = some year
    rw [ofDigits?_padded, Option.filter_some, if_pos (by simpa using hlong)]

theorem notMem_yearText {c : Char} (h : c.isDigit = false) (hplus : c ≠ '+') :
    c ∉ (Date.yearText year).toList := by
  rw [Date.yearText]
  split
  · exact notMem_padded h
  · have htext : (if (year : ℤ) < 0 then "-" else "+") = "+" := if_neg (by omega)
    rw [htext, String.toList_append, List.mem_append]
    rintro (hc | hc)
    · exact hplus (List.mem_singleton.mp hc)
    · exact notMem_padded h hc

/-- **The date of a day is read as that day.** -/
theorem day?_text (h : Calendar.IsDate year month day) :
    day? (Date.text ⟨year, month, day⟩).toList = some (Calendar.daysBefore year month day) := by
  have htext : (Date.text ⟨year, month, day⟩).toList = (Date.yearText year).toList ++
      '-' :: ((padded 2 month).toList ++ '-' :: (padded 2 day).toList) := by
    simp [Date.text]
  have hlength := (Calendar.monthDays_bounds year month).2
  have hmonth : field? 2 (padded 2 month).toList = some month :=
    field?_padded (by norm_num) (h.2.1.2.trans_lt (by norm_num))
  have hday : field? 2 (padded 2 day).toList = some day :=
    field?_padded (by norm_num) ((h.2.2.2.trans hlength).trans_lt (by norm_num))
  rw [day?, htext, splitOn_triple (notMem_yearText (by decide) (by decide))
    (notMem_padded (by decide)) (notMem_padded (by decide))]
  simp only [year?_yearText, hmonth, hday, Option.bind_eq_bind, Option.bind_some, if_pos h]

/-- **The time of a second of the day is read as that second.** -/
theorem clock?_clockText (s : ℕ) : clock? (Moment.clockText ⟨s, 0⟩).toList = some (s % 86400) := by
  obtain ⟨r, hr⟩ : ∃ r, r = s % 86400 := ⟨_, rfl⟩
  have hlt : r < 86400 := hr ▸ Nat.mod_lt s (by norm_num)
  have hsecond : Moment.secondOfDay ⟨s, 0⟩ = r := by
    show ((s : ℤ) % (86400 : ℕ)).toNat = r
    omega
  have htext : (Moment.clockText ⟨s, 0⟩).toList = (padded 2 (r / 3600)).toList ++
      ':' :: ((padded 2 (r / 60 % 60)).toList ++ ':' :: (padded 2 (r % 60)).toList) := by
    simp [Moment.clockText, hsecond]
  have hfield {n : ℕ} (h : n < 60) : field? 2 (padded 2 n).toList = some n :=
    field?_padded (by norm_num) (by omega)
  have hhour : r / 3600 < 24 := by omega
  have hminute : r / 60 % 60 < 60 := Nat.mod_lt _ (by norm_num)
  have hlast : r % 60 < 60 := Nat.mod_lt _ (by norm_num)
  have hcount : 3600 * (r / 3600) + 60 * (r / 60 % 60) + r % 60 = r := by omega
  rw [clock?, htext, splitOn_triple (notMem_padded (by decide)) (notMem_padded (by decide))
    (notMem_padded (by decide)), ← hr]
  simp only [hfield (hhour.trans (by norm_num)), hfield hminute, hfield hlast,
    Option.bind_eq_bind, Option.bind_some, if_pos (And.intro hhour (And.intro hminute hlast)),
    hcount]

theorem notMem_dateText {c : Char} (h : c.isDigit = false) (hplus : c ≠ '+') (hdash : c ≠ '-') :
    c ∉ (Date.text ⟨year, month, day⟩).toList := by
  simp [Date.text, notMem_yearText h hplus, notMem_padded h, hdash]

theorem notMem_clockText {c : Char} {m : Moment} (h : c.isDigit = false) (hcolon : c ≠ ':') :
    c ∉ m.clockText.toList := by
  simp [Moment.clockText, notMem_padded h, hcolon]

/-- The date of a second is that of its day. -/
theorem exists_date (s : ℕ) : ∃ year month day, Calendar.IsDate year month day ∧
    Calendar.daysBefore year month day = s / 86400 ∧
      (⟨s, 0⟩ : Moment).date = ⟨year, month, day⟩ := by
  obtain ⟨year, month, day, hdate, hdays⟩ := Calendar.exists_isDate (s / 86400)
  refine ⟨year, month, day, hdate, hdays, ?_⟩
  rw [← Date.ofDay_daysBefore hdate, hdays]
  rfl

/-- **A moment is read as its second.** -/
theorem second?_text (s : ℕ) :
    second? ((⟨s, 0⟩ : Moment).date.text ++ " " ++ Moment.clockText ⟨s, 0⟩ ++ " UTC") = some s := by
  obtain ⟨year, month, day, hdate, hdays, hofDay⟩ := exists_date s
  have htext : ((⟨s, 0⟩ : Moment).date.text ++ " " ++ Moment.clockText ⟨s, 0⟩ ++ " UTC").toList =
      (Date.text ⟨year, month, day⟩).toList ++
        ' ' :: ((Moment.clockText ⟨s, 0⟩).toList ++ ' ' :: ['U', 'T', 'C']) := by
    simp [hofDay]
  rw [second?, htext, splitOn_triple (notMem_dateText (by decide) (by decide) (by decide))
    (notMem_clockText (by decide) (by decide)) (by decide)]
  simp only [day?_text hdate, clock?_clockText, hdays, Option.bind_eq_bind, Option.bind_some,
    if_pos True.intro, Nat.div_add_mod]

/-! ### What is shown -/

/-- The last second that is shown. -/
def lastSecond : ℕ := 8210266876799

/-- The last second is the last one of the last year. -/
theorem lastYear_lt_iff (s : ℕ) :
    lastYear < (⟨s, 0⟩ : Moment).date.year ↔ lastSecond < s := by
  obtain ⟨year, month, day, hdate, hdays, hofDay⟩ := exists_date s
  have hcount := Calendar.sum_yearDays (show 1970 ≤ 262143 by norm_num)
  have hyear := hdate.le_year_iff 262143
  rw [Calendar.daysBefore, Finset.Ico_self, Finset.sum_empty, hdays] at hyear
  generalize ∑ y ∈ Finset.Ico 1970 262143, Calendar.yearDays y = days at hcount hyear
  rw [hofDay, lastYear, lastSecond]
  show (262142 : ℤ) < year ↔ _
  omega

/-- What is too large to be a time lies beyond the last year. -/
theorem lt_div_of_largestCount_lt {usec : ℕ} (h : largestCount < usec) :
    lastSecond < usec / 1000000 := by
  rw [largestCount, Nat.pow_eq] at h
  rw [lastSecond]
  omega

/-- A time up to the last second is shown, and nothing of it but its second. -/
theorem time_of_le {usec : ℕ} (hzero : usec ≠ 0) (hlast : usec / 1000000 ≤ lastSecond) :
    time usec = (⟨(usec / 1000000 : ℕ), 0⟩ : Moment).date.text ++ " " ++
      Moment.clockText ⟨(usec / 1000000 : ℕ), 0⟩ ++ " UTC" := by
  have hcount : ¬ largestCount < usec := fun h =>
    (lt_div_of_largestCount_lt h).not_ge hlast
  have hyear : ¬ lastYear < (⟨(usec / 1000000 : ℕ), 0⟩ : Moment).date.year := by
    rw [lastYear_lt_iff]
    exact Nat.not_lt.mpr hlast
  exact if_neg (not_or.mpr ⟨hzero, not_or.mpr ⟨hcount, hyear⟩⟩)

theorem second?_time {usec : ℕ} (hzero : usec ≠ 0) (hlast : usec / 1000000 ≤ lastSecond) :
    second? (time usec) = some (usec / 1000000) := by
  rw [time_of_le hzero hlast, second?_text]

/-- **The times that are not shown** are zero and all beyond the last second. -/
theorem time_eq_dash_iff (usec : ℕ) :
    time usec = "-" ↔ usec = 0 ∨ lastSecond < usec / 1000000 := by
  constructor
  · intro hdash
    by_contra hshown
    obtain ⟨hzero, hlast⟩ := not_or.mp hshown
    have hread := second?_time hzero (Nat.le_of_not_lt hlast)
    have hnone : second? "-" = none := rfl
    rw [hdash, hnone] at hread
    cases hread
  · rintro (hzero | hlast)
    · exact if_pos (.inl hzero)
    · exact if_pos (.inr (.inr ((lastYear_lt_iff _).mpr hlast)))

/-- **Times are shown to the second.** A dash is shown for zero and for what lies beyond the last
second of the last year, where all numbers of microseconds lie that are too large to be a time.
Every other text is read as just the second of its time, by the calendar, so two of them are equal
just if their times are in the same second. -/
theorem times_by_second :
    second? "+262142-12-31 23:59:59 UTC" = some lastSecond ∧
      (∀ usec, time usec = "-" ↔ usec = 0 ∨ lastSecond < usec / 1000000) ∧
      (∀ usec, 2 ^ 63 ≤ usec → lastSecond < usec / 1000000) ∧
      (∀ usec, time usec ≠ "-" → second? (time usec) = some (usec / 1000000)) ∧
      ∀ a b, time a ≠ "-" → time b ≠ "-" → (time a = time b ↔ a / 1000000 = b / 1000000) := by
  have hshown {usec : ℕ} (h : time usec ≠ "-") : usec ≠ 0 ∧ usec / 1000000 ≤ lastSecond := by
    rwa [Ne, time_eq_dash_iff, not_or, Nat.not_lt] at h
  have hread {usec : ℕ} (h : time usec ≠ "-") : second? (time usec) = some (usec / 1000000) :=
    second?_time (hshown h).1 (hshown h).2
  refine ⟨?_, time_eq_dash_iff, fun usec h => lt_div_of_largestCount_lt ?_, fun _ => hread,
    fun a b ha hb => ⟨fun htext => ?_, fun hsecond => ?_⟩⟩
  · have hlast : time (1000000 * lastSecond) = "+262142-12-31 23:59:59 UTC" := by decide +kernel
    have hsame := hread (show time (1000000 * lastSecond) ≠ "-" by rw [hlast]; decide)
    rwa [hlast, Nat.mul_div_cancel_left _ (by norm_num)] at hsame
  · exact (Nat.sub_one_lt_of_le (by norm_num) h : 2 ^ 63 - 1 < usec)
  · have hsame := hread ha
    rw [htext, hread hb] at hsame
    exact (Option.some.inj hsame).symm
  · rw [time_of_le (hshown ha).1 (hshown ha).2, time_of_le (hshown hb).1 (hshown hb).2, hsecond]

end Report

end Capsule
