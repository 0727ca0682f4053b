import PayReality.Lib.Calendar
import PayReality.Rego.Module

/-!
# Timestamps inside Rego

Model of `app/domain/time_utils.py`, with the `datetime` that it takes and `isoformat` of a
`datetime` in UTC.

A compiled Rego module compares timestamps as strings.

* `toUtcIso_chronological`: texts in UTC compare as the instants do.
* `toUtcIso_returns_iff`: the instants that have one.
-/

namespace PayReality

open Calendar

/-! ## `datetime` -/

/-- A `datetime` without its `tzinfo`; its constructor checks the ranges. -/
@[ext]
structure Datetime extends Date where
  hour : ℕ
  minute : ℕ
  second : ℕ
  microsecond : ℕ
  year_le : year ≤ 9999
  hour_lt : hour < 24
  minute_lt : minute < 60
  second_lt : second < 60
  microsecond_lt : microsecond < 1000000

/-- A timezone-aware `datetime`: `utcoffset`, in microseconds, is less than a day either way. -/
structure AwareDatetime extends Datetime where
  utcoffset : ℤ
  utcoffset_gt : -86400000000 < utcoffset
  utcoffset_lt : utcoffset < 86400000000

namespace Datetime

def secondOfDay (d : Datetime) : ℕ := (d.hour * 60 + d.minute) * 60 + d.second

/-- The microseconds since the day before the first of January of year 1. -/
def microseconds (d : Datetime) : ℕ :=
  (d.ordinal * 86400 + d.secondOfDay) * 1000000 + d.microsecond

/-- `MAXORDINAL`, the last day of year 9999. -/
def maxOrdinal : ℕ := daysBeforeYear 10000

theorem secondOfDay_lt (d : Datetime) : d.secondOfDay < 86400 := by
  have := d.hour_lt
  have := d.minute_lt
  have := d.second_lt
  simp only [secondOfDay]
  omega

/-- A day has its year in range when it is at most `MAXORDINAL`. -/
theorem year_ofOrdinal_le {n : ℕ} (hn : 1 ≤ n) (hmax : n ≤ maxOrdinal) :
    (Date.ofOrdinal n hn).year ≤ 9999 := by
  by_contra hyear
  have hmono : daysBeforeYear 10000 ≤ daysBeforeYear (yearOf n) :=
    daysBeforeYear_mono (Nat.lt_of_not_le hyear)
  have := (year_spec hn).2.1
  simp only [maxOrdinal] at hmax
  omega

/-- A `timedelta` added to a `datetime`, by its microseconds; `none` is `OverflowError`, "date value
out of range". -/
def ofMicroseconds (n : ℤ) : Option Datetime :=
  let ordinal := (n / 86400000000).toNat
  if h : 1 ≤ ordinal ∧ ordinal ≤ maxOrdinal then
    let second := (n / 1000000).toNat % 86400
    some
      { Date.ofOrdinal ordinal h.1 with
        hour := second / 3600
        minute := second / 60 % 60
        second := second % 60
        microsecond := (n % 1000000).toNat
        year_le := year_ofOrdinal_le h.1 h.2
        hour_lt := by omega
        minute_lt := by omega
        second_lt := by omega
        microsecond_lt := by omega }
  else none

/-- **The fields that a conversion makes are those of its microseconds.** -/
theorem microseconds_ofMicroseconds {n : ℤ} {d : Datetime} (h : ofMicroseconds n = some d) :
    (d.microseconds : ℤ) = n := by
  simp only [ofMicroseconds] at h
  split at h
  · case isTrue hrange =>
    simp only [Option.some.injEq] at h
    subst h
    simp only [microseconds, secondOfDay, Date.ordinal_ofOrdinal]
    omega
  · simp at h

theorem ofMicroseconds_isSome_iff (n : ℤ) :
    (ofMicroseconds n).isSome ↔ 86400000000 ≤ n ∧ n < (maxOrdinal + 1) * 86400000000 := by
  simp only [ofMicroseconds]
  split
  · case isTrue h =>
    simp
    omega
  · case isFalse h =>
    simp
    omega

/-- `%04d-%02d-%02d`. -/
def isoDate (d : Datetime) : List Char :=
  digits 4 d.year ++ ['-'] ++ digits 2 d.month ++ ['-'] ++ digits 2 d.day

/-- `%02d:%02d:%02d`. -/
def isoTime (d : Datetime) : List Char :=
  digits 2 d.hour ++ [':'] ++ digits 2 d.minute ++ [':'] ++ digits 2 d.second

/-- `.%06d`, which is left out of a whole second, and the offset of UTC. -/
def isoFraction (d : Datetime) : List Char :=
  (if d.microsecond = 0 then [] else '.' :: digits 6 d.microsecond) ++ "+00:00".toList

/-- `isoformat` of a `datetime` whose `tzinfo` is `timezone.utc`. -/
def isoformat (d : Datetime) : String :=
  String.ofList (d.isoDate ++ ['T'] ++ d.isoTime ++ d.isoFraction)

/-! ## The order of the texts -/

theorem isoDate_inStep (d e : Datetime) : InStep d.isoDate e.isoDate d.ordinal e.ordinal := by
  have hd := d.year_le
  have he := e.year_le
  have hdm := d.month_le
  have hem := e.month_le
  have hdd := d.day_lt
  have hed := e.day_lt
  have hyear := (InStep.digits 4 (m := d.year) (n := e.year)
    (by omega) (by omega)).separator '-'
  have hmonth := (hyear.append (InStep.digits 2 (m := d.month) (n := e.month)
    (by omega) (by omega)) (k := 13) (by omega) (by omega)).separator '-'
  have hday := hmonth.append (InStep.digits 2 (m := d.day) (n := e.day)
    (by omega) (by omega)) (k := 32) (by omega) (by omega)
  exact ⟨hday.length, hday.lt.trans (Date.ordinal_lt_iff d.toDate e.toDate),
    hday.eq.trans (Date.ordinal_eq_iff d.toDate e.toDate)⟩

theorem isoTime_inStep (d e : Datetime) :
    InStep d.isoTime e.isoTime d.secondOfDay e.secondOfDay := by
  have hdh := d.hour_lt
  have heh := e.hour_lt
  have hdm := d.minute_lt
  have hem := e.minute_lt
  have hds := d.second_lt
  have hes := e.second_lt
  have hhour := (InStep.digits 2 (m := d.hour) (n := e.hour)
    (by omega) (by omega)).separator ':'
  have hminute := (hhour.append (InStep.digits 2 (m := d.minute) (n := e.minute)
    (by omega) (by omega)) (k := 60) hdm hem).separator ':'
  exact hminute.append (InStep.digits 2 (by omega) (by omega)) hds hes

/-- A whole second comes before the fractions of it, since `+` is less than `.`. -/
theorem isoFraction_lt (d e : Datetime) :
    d.isoFraction < e.isoFraction ↔ d.microsecond < e.microsecond := by
  have hsign : "+00:00".toList = ['+', '0', '0', ':', '0', '0'] := rfl
  have hless : '+' < '.' := by decide
  simp only [isoFraction, hsign]
  by_cases hd : d.microsecond = 0
  · by_cases he : e.microsecond = 0
    · simp [hd, he]
    · simp [hd, he, List.cons_lt_cons_iff, hless]
      omega
  · by_cases he : e.microsecond = 0
    · have hnot : ¬ '.' < '+' := by decide
      simp [hd, he, List.cons_lt_cons_iff, hnot]
    · have hmicro : InStep (digits 6 d.microsecond) (digits 6 e.microsecond)
          d.microsecond e.microsecond := .digits 6 d.microsecond_lt e.microsecond_lt
      have htail : ['+', '0', '0', ':', '0', '0'] < ['+', '0', '0', ':', '0', '0'] ↔ 0 < 0 := by
        simp
      have := hmicro.append_lt htail Nat.zero_lt_one Nat.zero_lt_one
      simpa [hd, he, List.cons_lt_cons_iff] using this

/-- **Texts in UTC are ordered as the instants.** -/
theorem isoformat_lt (d e : Datetime) :
    d.isoformat < e.isoformat ↔ d.microseconds < e.microseconds := by
  have hdate := (isoDate_inStep d e).separator 'T'
  have hsecond := hdate.append (isoTime_inStep d e) d.secondOfDay_lt e.secondOfDay_lt
  have := hsecond.append_lt (isoFraction_lt d e) d.microsecond_lt e.microsecond_lt
  simpa only [isoformat, String.lt_iff_toList_lt, String.toList_ofList, microseconds] using this

end Datetime

namespace AwareDatetime

/-- The instant, in microseconds of UTC. -/
def instant (d : AwareDatetime) : ℤ := d.microseconds - d.utcoffset

/-- `d.astimezone(timezone.utc)`. -/
def astimezoneUtc (d : AwareDatetime) : Option Datetime := Datetime.ofMicroseconds d.instant

end AwareDatetime

/-- `to_utc_iso`. -/
def toUtcIso (dt : AwareDatetime) : Option String := dt.astimezoneUtc.map Datetime.isoformat

/-- The comparison of two instants. -/
def Rego.Cmp.compares : Rego.Cmp → ℤ → ℤ → Prop
  | .lte, x, y => x ≤ y
  | .gte, x, y => y ≤ x
  | .eq, x, y => x = y
  | .neq, x, y => x ≠ y
  | .lt, x, y => x < y
  | .gt, x, y => y < x

theorem Json.regoLt_str (s t : String) : Json.regoLt (.str s) (.str t) = true ↔ s < t := by
  simp [Json.regoLt_iff, Json.key, Json.Token.mk, List.cons_lt_cons_iff, Prod.Lex.toLex_lt_toLex]

theorem Json.regoLe_str (s t : String) : Json.regoLe (.str s) (.str t) = true ↔ ¬ t < s := by
  rw [← Json.regoLt_str, Json.regoLe_iff, Json.regoLt_iff, not_lt]

theorem Json.regoEq_strs (s t : String) : Json.regoEq (.str s) (.str t) = true ↔ s = t := by
  simp [Json.regoEq_iff, Json.key, Json.Token.mk]

theorem eq_iff_of_same_order {s t : String} {x y : ℤ} (hlt : s < t ↔ x < y)
    (hgt : t < s ↔ y < x) : s = t ↔ x = y := by
  constructor
  · intro h
    subst h
    have hless : ¬ x < y := fun h => lt_irrefl s (hlt.2 h)
    have hmore : ¬ y < x := fun h => lt_irrefl s (hgt.2 h)
    omega
  · intro h
    by_contra hne
    obtain hless | hmore := lt_or_gt_of_ne hne
    · have := hlt.1 hless
      omega
    · have := hgt.1 hmore
      omega

/-- Strings that are ordered as two instants compare as the instants in Rego. -/
theorem Rego.Cmp.holds_str {s t : String} {x y : ℤ} (hlt : s < t ↔ x < y) (hgt : t < s ↔ y < x)
    (op : Rego.Cmp) : op.holds (.str s) (.str t) = true ↔ op.compares x y := by
  have heq := eq_iff_of_same_order hlt hgt
  cases op with
  | lte => simp [holds, compares, Json.regoLe_str, hgt]
  | gte => simp [holds, compares, Json.regoLe_str, hlt]
  | eq => simp [holds, compares, Json.regoEq_strs, heq]
  | neq => simp [holds, compares, ← heq, ← Json.regoEq_strs]
  | lt => simp [holds, compares, Json.regoLt_str, hlt]
  | gt => simp [holds, compares, Json.regoLt_str, hgt]

/-! ## `to_utc_iso` -/

theorem toUtcIso_some {dt : AwareDatetime} {s : String} (h : toUtcIso dt = some s) :
    ∃ d : Datetime, (d.microseconds : ℤ) = dt.instant ∧ d.isoformat = s := by
  obtain ⟨d, hd, htext⟩ := Option.map_eq_some_iff.1 h
  exact ⟨d, Datetime.microseconds_ofMicroseconds hd, htext⟩

/-- The conversion returns for the instants of the years 1 to 9999 of UTC. -/
theorem toUtcIso_returns_iff (dt : AwareDatetime) :
    (toUtcIso dt).isSome ↔
      86400000000 ≤ dt.instant ∧ dt.instant < (Datetime.maxOrdinal + 1) * 86400000000 := by
  rw [toUtcIso, Option.isSome_map, AwareDatetime.astimezoneUtc, Datetime.ofMicroseconds_isSome_iff]

theorem toUtcIso_lt {a b : AwareDatetime} {s t : String} (ha : toUtcIso a = some s)
    (hb : toUtcIso b = some t) : s < t ↔ a.instant < b.instant := by
  obtain ⟨d, hd, rfl⟩ := toUtcIso_some ha
  obtain ⟨e, he, rfl⟩ := toUtcIso_some hb
  rw [Datetime.isoformat_lt, ← hd, ← he, Nat.cast_lt]

/-- **Timestamps sort chronologically**: as strings, and in every comparison of a compiled rule with
the timestamp of an input. -/
theorem toUtcIso_chronological (a b : AwareDatetime) {s t : String} (ha : toUtcIso a = some s)
    (hb : toUtcIso b = some t) :
    (a.instant < b.instant ↔ s < t) ∧ (a.instant = b.instant → s = t) ∧
      ∀ (op : Rego.Cmp) (input : Json) (rules : String → Bool) (sets : String → List Json),
        input.lookup ["context", "timestamp"] = some (.str s) →
          ((Rego.Expr.compare ["context", "timestamp"] op (.str t)).holds rules sets input = true ↔
            op.compares a.instant b.instant) := by
  have hlt := toUtcIso_lt ha hb
  have hgt := toUtcIso_lt hb ha
  refine ⟨hlt.symm, (eq_iff_of_same_order hlt hgt).2, ?_⟩
  intro op input rules sets htimestamp
  simp [Rego.Expr.holds, htimestamp, Rego.Cmp.holds_str hlt hgt op]

/-- Noon in a zone two hours ahead is half a second before the other instant, which has a
fraction. -/
theorem toUtcIso_chronological_offset :
    "2024-03-01T10:00:00+00:00" < "2024-03-01T10:00:00.500000+00:00" :=
  let date : Date := ⟨2024, 3, 1, by decide, by decide, by decide, by decide, by decide⟩
  let noon : AwareDatetime :=
    { date with
      hour := 12, minute := 0, second := 0, microsecond := 0, utcoffset := 7200000000
      year_le := by decide, hour_lt := by decide, minute_lt := by decide
      second_lt := by decide, microsecond_lt := by decide
      utcoffset_gt := by decide, utcoffset_lt := by decide }
  let later : AwareDatetime :=
    { date with
      hour := 10, minute := 0, second := 0, microsecond := 500000, utcoffset := 0
      year_le := by decide, hour_lt := by decide, minute_lt := by decide
      second_lt := by decide, microsecond_lt := by decide
      utcoffset_gt := by decide, utcoffset_lt := by decide }
  (toUtcIso_chronological noon later (by decide +kernel) (by decide +kernel)).1.1
    (by decide +kernel)

end PayReality
