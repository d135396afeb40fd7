import ParallelForge.Base.Json
import Mathlib.Data.Nat.Find

/-!
# Dates and times as `datetime` writes them

The proleptic Gregorian calendar by day numbers, day 1 being 0001-01-01. An instant is
its number of microseconds from the start of that day in UTC; what `isoformat` writes of
it is read back.
-/

namespace ParallelForge.Base

namespace Calendar

/-! ## Days -/

def isLeap (year : ℕ) : Bool := year % 4 == 0 && (year % 100 != 0 || year % 400 == 0)

/-- `_days_before_year`. -/
def daysBeforeYear (year : ℕ) : ℕ := (year - 1) * 365 + (year - 1) / 4 - (year - 1) / 100 + (year - 1) / 400

/-- `_days_in_month`. -/
def daysInMonth (year month : ℕ) : ℕ :=
  if month = 2 then if isLeap year then 29 else 28
  else if month = 4 ∨ month = 6 ∨ month = 9 ∨ month = 11 then 30
  else 31

/-- `_days_before_month`. -/
def daysBeforeMonth (year : ℕ) : ℕ → ℕ
  | 0 => 0
  | 1 => 0
  | month + 2 => daysBeforeMonth year (month + 1) + daysInMonth year (month + 1)

/-- `_ymd2ord`. -/
def ordinal (year month day : ℕ) : ℕ := daysBeforeYear year + daysBeforeMonth year month + day

/-- The year a day lies in: the last one that begins before it. -/
def yearOf (n : ℕ) : ℕ := Nat.findGreatest (fun year => daysBeforeYear year < n) (n / 365 + 1)

def monthOf (year n : ℕ) : ℕ := Nat.findGreatest (fun month => daysBeforeMonth year month < n) 12

theorem isLeap_iff (year : ℕ) : isLeap year = true ↔ 4 ∣ year ∧ (¬100 ∣ year ∨ 400 ∣ year) := by
  simp [isLeap, Nat.dvd_iff_mod_eq_zero]

theorem daysBeforeYear_succ (year : ℕ) (h : 1 ≤ year) :
    daysBeforeYear (year + 1) = daysBeforeYear year + (if isLeap year then 366 else 365) := by
  obtain ⟨n, rfl⟩ : ∃ n, year = n + 1 := ⟨year - 1, by omega⟩
  have hless : n / 100 ≤ n / 4 := Nat.div_le_div_left (by decide) (by decide)
  have hhundred : 400 ∣ n + 1 → 100 ∣ n + 1 := (Nat.dvd_trans (by decide) ·)
  have hfour : 100 ∣ n + 1 → 4 ∣ n + 1 := (Nat.dvd_trans (by decide) ·)
  unfold daysBeforeYear
  simp only [Nat.add_sub_cancel, isLeap_iff, Nat.succ_div]
  generalize n / 4 = a at *
  generalize n / 100 = b at *
  generalize n / 400 = c at *
  clear h
  by_cases h4 : 4 ∣ n + 1
  · by_cases h100 : 100 ∣ n + 1
    · by_cases h400 : 400 ∣ n + 1
      · simp only [h4, h100, h400, if_true, not_true, or_true, and_self]
        omega
      · simp only [h4, h100, h400, if_true, if_false, not_true, or_self, and_false]
        omega
    · simp only [h4, h100, mt hhundred h100, if_true, if_false, not_false_eq_true, true_or, and_self]
      omega
  · have h100 := mt hfour h4
    simp only [h4, h100, mt hhundred h100, if_false, false_and]
    omega

theorem daysBeforeYear_ge (year : ℕ) : (year - 1) * 365 ≤ daysBeforeYear year := by
  unfold daysBeforeYear
  omega

theorem daysBeforeMonth_twelve (year : ℕ) :
    daysBeforeMonth year 12 + 31 = if isLeap year then 366 else 365 := by
  cases h : isLeap year with
  | true => simp [daysBeforeMonth, daysInMonth, h]
  | false => simp [daysBeforeMonth, daysInMonth, h]

theorem yearOf_spec (n : ℕ) (h : 1 ≤ n) :
    1 ≤ yearOf n ∧ daysBeforeYear (yearOf n) < n ∧ n ≤ daysBeforeYear (yearOf n + 1) := by
  have hone : daysBeforeYear 1 < n := h
  have hfound : daysBeforeYear (yearOf n) < n :=
    Nat.findGreatest_spec (P := fun year => daysBeforeYear year < n) (m := 1) (by omega) hone
  have hle : 1 ≤ yearOf n := Nat.le_findGreatest (by omega) hone
  refine ⟨hle, hfound, ?_⟩
  by_contra hnot
  push Not at hnot
  have hbound : yearOf n + 1 ≤ n / 365 + 1 := by
    have := daysBeforeYear_ge (yearOf n + 1)
    omega
  have hmax := Nat.findGreatest_is_greatest (P := fun year => daysBeforeYear year < n)
    (n := n / 365 + 1) (k := yearOf n + 1) (Nat.lt_succ_self _) hbound
  exact hmax hnot

theorem monthOf_spec (year n : ℕ) (h : 1 ≤ n) (hn : n ≤ if isLeap year then 366 else 365) :
    1 ≤ monthOf year n ∧ monthOf year n ≤ 12 ∧ daysBeforeMonth year (monthOf year n) < n ∧
      n ≤ daysBeforeMonth year (monthOf year n) + daysInMonth year (monthOf year n) := by
  have hone : daysBeforeMonth year 1 < n := h
  have hfound : daysBeforeMonth year (monthOf year n) < n :=
    Nat.findGreatest_spec (P := fun month => daysBeforeMonth year month < n) (m := 1) (by omega) hone
  have hle : 1 ≤ monthOf year n := Nat.le_findGreatest (by omega) hone
  have htwelve : monthOf year n ≤ 12 := Nat.findGreatest_le 12
  refine ⟨hle, htwelve, hfound, ?_⟩
  by_contra hnot
  push Not at hnot
  by_cases hlast : monthOf year n = 12
  · have hyear := daysBeforeMonth_twelve year
    have hdecember : daysInMonth year 12 = 31 := rfl
    rw [hlast, hdecember] at hnot
    omega
  · have hmax := Nat.findGreatest_is_greatest (P := fun month => daysBeforeMonth year month < n)
      (n := 12) (k := monthOf year n + 1) (Nat.lt_succ_self _) (by omega)
    obtain ⟨m, hm⟩ : ∃ m, monthOf year n = m + 1 := ⟨monthOf year n - 1, by omega⟩
    rw [hm] at hnot hmax
    exact hmax hnot

/-- `_ord2ymd`. -/
def dateOf (n : ℕ) : ℕ × ℕ × ℕ :=
  let year := yearOf n
  let month := monthOf year (n - daysBeforeYear year)
  (year, month, n - daysBeforeYear year - daysBeforeMonth year month)

/-- The date of a day is a date, and the day is its day. -/
theorem dateOf_spec (n : ℕ) (h : 1 ≤ n) :
    1 ≤ (dateOf n).1 ∧ 1 ≤ (dateOf n).2.1 ∧ (dateOf n).2.1 ≤ 12 ∧ 1 ≤ (dateOf n).2.2 ∧
      (dateOf n).2.2 ≤ daysInMonth (dateOf n).1 (dateOf n).2.1 ∧
      ordinal (dateOf n).1 (dateOf n).2.1 (dateOf n).2.2 = n := by
  obtain ⟨hyear, hbefore, hafter⟩ := yearOf_spec n h
  rw [daysBeforeYear_succ _ hyear] at hafter
  obtain ⟨hmonth, htwelve, hlow, hhigh⟩ := monthOf_spec (yearOf n) (n - daysBeforeYear (yearOf n)) (by omega) (by omega)
  simp only [dateOf, ordinal]
  exact ⟨hyear, hmonth, htwelve, by omega, by omega, by omega⟩

/-- `_MAXORDINAL`, 9999-12-31. -/
def maxOrdinal : ℕ := 3652059

theorem yearOf_le (n : ℕ) (h : n ≤ maxOrdinal) : yearOf n ≤ 9999 := by
  by_contra hnot
  push Not at hnot
  have hone : 1 ≤ n := by
    by_contra hzero
    have : n = 0 := by omega
    rw [this] at hnot
    have := Nat.findGreatest_le (P := fun year => daysBeforeYear year < 0) (0 / 365 + 1)
    unfold yearOf at hnot
    omega
  have hbefore := (yearOf_spec n hone).2.1
  unfold daysBeforeYear maxOrdinal at *
  omega

/-! ## Digits -/

/-- `%0wd`, where the number has `w` digits at most. -/
def fixed : ℕ → ℕ → Str
  | 0, _ => []
  | w + 1, n => fixed w (n / 10) ++ [48 + n % 10]

/-- `w` digits at the start of a text. -/
def takeFixed (w : ℕ) (s : Str) : Option (ℕ × Str) :=
  if (s.take w).length = w ∧ (s.take w).all Json.isDigit then some (Json.readDecimal (s.take w), s.drop w) else none

theorem length_fixed (w n : ℕ) : (fixed w n).length = w := by
  induction w generalizing n with
  | zero => rfl
  | succ w ih => rw [fixed, List.length_append, ih, List.length_singleton]

theorem isDigit_fixed (w n : ℕ) : (fixed w n).all Json.isDigit = true := by
  induction w generalizing n with
  | zero => rfl
  | succ w ih =>
    rw [fixed, List.all_append, ih]
    have hdigit : n % 10 < 10 := Nat.mod_lt _ (by decide)
    simp [Json.isDigit]
    omega

theorem readDecimal_fixed (w n : ℕ) (h : n < 10 ^ w) : Json.readDecimal (fixed w n) = n := by
  induction w generalizing n with
  | zero =>
    have : n = 0 := by simpa using h
    rw [this]
    rfl
  | succ w ih =>
    have hlow : n / 10 < 10 ^ w := by
      rw [Nat.pow_succ] at h
      omega
    have := ih (n / 10) hlow
    unfold Json.readDecimal at this ⊢
    rw [fixed, List.foldl_append, this]
    simp only [List.foldl_cons, List.foldl_nil]
    omega

theorem takeFixed_fixed (w n : ℕ) (rest : Str) (h : n < 10 ^ w) :
    takeFixed w (fixed w n ++ rest) = some (n, rest) := by
  have htake : (fixed w n ++ rest).take w = fixed w n := by
    rw [List.take_append_of_le_length (length_fixed w n).ge, List.take_of_length_le (length_fixed w n).le]
  have hdrop : (fixed w n ++ rest).drop w = rest := List.drop_left' (length_fixed w n)
  unfold takeFixed
  rw [htake, hdrop, if_pos ⟨length_fixed w n, isDigit_fixed w n⟩, readDecimal_fixed w n h]

/-! ## Instants -/

def dayMicros : ℕ := 86400000000

/-- The first instant that no `datetime` has. -/
def maxMicros : ℕ := maxOrdinal * dayMicros

/-- A `datetime`: what its clock shows, as microseconds, and its offset from UTC. -/
structure Moment where
  wall : ℕ
  offset : Option ℤ
  deriving DecidableEq, Repr

/-- `astimezone(UTC)`, where the value has a zone and does not leave the calendar. -/
def Moment.instant (m : Moment) : Option ℕ :=
  m.offset.bind fun offset =>
    if 0 ≤ (m.wall : ℤ) - offset ∧ (m.wall : ℤ) - offset < maxMicros then some ((m.wall : ℤ) - offset).toNat else none

def utcMoment (t : ℕ) : Moment := ⟨t, some 0⟩

theorem instant_utcMoment (t : ℕ) (h : t < maxMicros) : (utcMoment t).instant = some t := by
  have hwall : (utcMoment t).wall = t := rfl
  have hbounds : 0 ≤ ((utcMoment t).wall : ℤ) - 0 ∧ ((utcMoment t).wall : ℤ) - 0 < maxMicros := by omega
  rw [Moment.instant, show (utcMoment t).offset = some 0 from rfl, Option.bind_some, if_pos hbounds]
  exact congrArg some (by omega)

theorem instant_lt (m : Moment) (t : ℕ) (h : m.instant = some t) : t < maxMicros := by
  cases hoffset : m.offset with
  | none => simp [Moment.instant, hoffset] at h
  | some offset =>
    simp only [Moment.instant, hoffset, Option.bind_some] at h
    split at h
    · cases h
      omega
    · cases h

/-- `isoformat` of a time in UTC. -/
def isoUtc (t : ℕ) : Str :=
  let date := dateOf (t / dayMicros + 1)
  let seconds := t % dayMicros / 1000000
  let micros := t % 1000000
  fixed 4 date.1 ++ 45 :: (fixed 2 date.2.1 ++ 45 :: (fixed 2 date.2.2 ++ 84 ::
    (fixed 2 (seconds / 3600) ++ 58 :: (fixed 2 (seconds / 60 % 60) ++ 58 :: (fixed 2 (seconds % 60) ++
      ((if micros = 0 then [] else 46 :: fixed 6 micros) ++ codes "+00:00"))))))

/-- One letter at the start of a text. -/
def takeLetter (c : ℕ) (s : Str) : Option Str :=
  match s with
  | d :: rest => if d = c then some rest else none
  | [] => none

/-- `.ffffff`, if it is there. -/
def takeMicros (s : Str) : Option (ℕ × Str) :=
  match takeLetter 46 s with
  | some rest => takeFixed 6 rest
  | none => some (0, s)

/-- A text in the form `isoUtc` writes, as the instant it names. -/
def readUtc (s : Str) : Option ℕ := do
  let (year, s) ← takeFixed 4 s
  let (month, s) ← takeFixed 2 (← takeLetter 45 s)
  let (day, s) ← takeFixed 2 (← takeLetter 45 s)
  let (hour, s) ← takeFixed 2 (← takeLetter 84 s)
  let (minute, s) ← takeFixed 2 (← takeLetter 58 s)
  let (second, s) ← takeFixed 2 (← takeLetter 58 s)
  let (micros, s) ← takeMicros s
  if s = codes "+00:00" ∧ 1 ≤ year ∧ 1 ≤ month ∧ month ≤ 12 ∧ 1 ≤ day ∧ day ≤ daysInMonth year month ∧
      hour < 24 ∧ minute < 60 ∧ second < 60 then
    some ((ordinal year month day - 1) * dayMicros + ((hour * 60 + minute) * 60 + second) * 1000000 + micros)
  else none

theorem takeLetter_cons (c : ℕ) (rest : Str) : takeLetter c (c :: rest) = some rest := if_pos rfl

theorem takeMicros_write (micros : ℕ) (rest : Str) (h : micros < 1000000) (hrest : takeLetter 46 rest = none) :
    takeMicros ((if micros = 0 then [] else 46 :: fixed 6 micros) ++ rest) = some (micros, rest) := by
  by_cases hzero : micros = 0
  · rw [if_pos hzero, List.nil_append, takeMicros, hrest, hzero]
  · rw [if_neg hzero, List.cons_append, takeMicros, takeLetter_cons]
    exact takeFixed_fixed 6 micros rest h

/-- What `isoformat` writes of an instant is read as that instant. -/
theorem readUtc_isoUtc (t : ℕ) (h : t < maxMicros) : readUtc (isoUtc t) = some t := by
  have hday : t / dayMicros + 1 ≤ maxOrdinal := Nat.div_lt_of_lt_mul (by rwa [maxMicros, Nat.mul_comm] at h)
  obtain ⟨hyear, hmonth, htwelve, hone, hlast, hordinal⟩ := dateOf_spec (t / dayMicros + 1) (Nat.le_add_left 1 _)
  have hyears : (dateOf (t / dayMicros + 1)).1 ≤ 9999 := yearOf_le _ hday
  have hdays : daysInMonth (dateOf (t / dayMicros + 1)).1 (dateOf (t / dayMicros + 1)).2.1 ≤ 31 := by
    unfold daysInMonth
    split_ifs <;> omega
  unfold readUtc isoUtc
  generalize dateOf (t / dayMicros + 1) = date at *
  obtain ⟨year, month, day⟩ := date
  have hseconds : t % dayMicros / 1000000 < 86400 := Nat.div_lt_of_lt_mul (Nat.mod_lt t (by decide))
  have htime : t = t / dayMicros * dayMicros + t % dayMicros / 1000000 * 1000000 + t % 1000000 := by
    unfold dayMicros
    omega
  generalize t % dayMicros / 1000000 = seconds at *
  have hmicros : t % 1000000 < 1000000 := Nat.mod_lt t (by decide)
  have hzone : takeLetter 46 (codes "+00:00") = none := by decide
  have hclock : (seconds / 3600 * 60 + seconds / 60 % 60) * 60 + seconds % 60 = seconds := by omega
  simp only at hyear hmonth htwelve hone hlast hordinal hyears hdays
  simp only [takeFixed_fixed 4 year _ (by omega), takeFixed_fixed 2 month _ (by omega), takeFixed_fixed 2 day _ (by omega),
    takeFixed_fixed 2 (seconds / 3600) _ (by omega), takeFixed_fixed 2 (seconds / 60 % 60) _ (by omega),
    takeFixed_fixed 2 (seconds % 60) _ (by omega), takeLetter_cons, Option.bind_eq_bind, Option.bind_some,
    takeMicros_write _ _ hmicros hzone]
  rw [if_pos ⟨trivial, hyear, hmonth, htwelve, hone, hlast, by omega, by omega, by omega⟩, hordinal, hclock,
    Nat.add_sub_cancel, ← htime]

/-- `datetime.fromisoformat`; the forms that `isoformat` does not write of a time in UTC
are read by `other`. -/
def fromIsoformat (other : Str → Option Moment) (s : Str) : Option Moment :=
  match readUtc s with
  | some t => some (utcMoment t)
  | none => other s

theorem fromIsoformat_isoUtc (other : Str → Option Moment) (t : ℕ) (h : t < maxMicros) :
    fromIsoformat other (isoUtc t) = some (utcMoment t) := by
  rw [fromIsoformat, readUtc_isoUtc t h]

-- a leap day, with and without a fraction of a second
example : isoUtc (((ordinal 2024 2 29 - 1) * 86400 + 3600) * 1000000) = codes "2024-02-29T01:00:00+00:00" := by
  decide +kernel

example : readUtc (codes "2026-12-31T23:59:59.000001+00:00") =
    some (((ordinal 2027 1 1 - 1) * 86400 - 1) * 1000000 + 1) := by decide +kernel

end Calendar

end ParallelForge.Base
