/-
Aware datetimes and their ISO 8601 text.

An aware datetime is an instant: microseconds since 0001-01-01T00:00:00 UTC,
below the end of year 9999 (`DateTime`).  The calendar is the proleptic
Gregorian one, computed by the ordinal arithmetic of the `datetime` module
(`ymdToOrd`, `ordToYmd`).

* `DateTime.addSeconds` — `d + timedelta(seconds=n)`, `none` on `OverflowError`;
* `isoformat` — the text of a datetime in UTC;
* `fromisoformat` — the parser, for every form it documents: calendar and week
  dates, basic and extended, any one character between date and time,
  fractions, offsets and `Z`; `none` is a `ValueError`;
* `fromisoformat_isoformat` — the round trip.
-/
import Mathlib.Tactic.IntervalCases
import Mathlib.Tactic.Ring
import Mathlib.Data.List.Basic

namespace Python

/-! ### The calendar -/

/-- `_is_leap`. -/
def isLeap (year : ℕ) : Bool := year % 4 == 0 && (year % 100 != 0 || year % 400 == 0)

/-- `_days_before_year`. -/
def daysBeforeYear (year : ℕ) : ℕ :=
  (year - 1) * 365 + (year - 1) / 4 - (year - 1) / 100 + (year - 1) / 400

/-- `_DAYS_BEFORE_MONTH`, for a common year. -/
def daysBeforeMonthTable : List ℕ := [0, 31, 59, 90, 120, 151, 181, 212, 243, 273, 304, 334]

/-- `_DAYS_IN_MONTH`, for a common year. -/
def daysInMonthTable : List ℕ := [31, 28, 31, 30, 31, 30, 31, 31, 30, 31, 30, 31]

/-- `_days_in_month`. -/
def daysInMonth (leap : Bool) (month : ℕ) : ℕ :=
  if month = 2 ∧ leap then 29 else daysInMonthTable.getD (month - 1) 0

/-- `_days_before_month`. -/
def daysBeforeMonth (leap : Bool) (month : ℕ) : ℕ :=
  daysBeforeMonthTable.getD (month - 1) 0 + if 2 < month ∧ leap then 1 else 0

/-- `_ymd2ord`: the ordinal of a date, 1 for 0001-01-01. -/
def ymdToOrd (year month day : ℕ) : ℕ :=
  daysBeforeYear year + daysBeforeMonth (isLeap year) month + day

/-- The month and day of day `n` (from 0) of a year: the estimate
`(n + 50) >> 5` of the month, and its correction. -/
def monthDay (leap : Bool) (n : ℕ) : ℕ × ℕ :=
  let month := (n + 50) / 32
  if n < daysBeforeMonth leap month then
    (month - 1, n - daysBeforeMonth leap (month - 1) + 1)
  else (month, n - daysBeforeMonth leap month + 1)

/-- `_ord2ymd`. -/
def ordToYmd (ord : ℕ) : ℕ × ℕ × ℕ :=
  let n := ord - 1
  let n400 := n / 146097
  let n := n % 146097
  let n100 := n / 36524
  let n := n % 36524
  let n4 := n / 1461
  let n := n % 1461
  let n1 := n / 365
  let n := n % 365
  let year := n400 * 400 + 1 + n100 * 100 + n4 * 4 + n1
  if n1 = 4 ∨ n100 = 4 then (year - 1, 12, 31)
  else (year, monthDay (n1 == 3 && (n4 != 24 || n100 == 3)) n)

/-- `date.max.toordinal()`: 9999-12-31. -/
def maxOrdinal : ℕ := 3652059

theorem monthDay_spec : ∀ leap : Bool, ∀ n < 366, (leap = true ∨ n < 365) →
    let (m, d) := monthDay leap n
    1 ≤ m ∧ m ≤ 12 ∧ 1 ≤ d ∧ d ≤ daysInMonth leap m ∧ daysBeforeMonth leap m + d = n + 1 := by
  decide +kernel

theorem isLeap_of_cycle (a b c d : ℕ) (hb : b ≤ 3) (hc : c ≤ 24) (hd : d ≤ 3) :
    isLeap (a * 400 + 1 + b * 100 + c * 4 + d) = (d == 3 && (c != 24 || b == 3)) := by
  rw [Bool.eq_iff_iff]
  simp only [isLeap, Bool.and_eq_true, Bool.or_eq_true, beq_iff_eq, bne_iff_ne]
  omega

theorem daysBeforeYear_of_cycle (a b c d : ℕ) (hb : b ≤ 3) (hc : c ≤ 24) (hd : d ≤ 3) :
    daysBeforeYear (a * 400 + 1 + b * 100 + c * 4 + d) =
      146097 * a + 36524 * b + 1461 * c + 365 * d := by
  have h1 : a * 400 + 1 + b * 100 + c * 4 + d - 1 = 400 * a + 100 * b + 4 * c + d := by omega
  have h4 : (400 * a + 100 * b + 4 * c + d) / 4 = 100 * a + 25 * b + c := by omega
  have h100 : (400 * a + 100 * b + 4 * c + d) / 100 = 4 * a + b := by omega
  have h400 : (400 * a + 100 * b + 4 * c + d) / 400 = a := by omega
  rw [daysBeforeYear, h1, h4, h100, h400]
  omega

/-- The ordinal of 31 December. -/
theorem ymdToOrd_last (year : ℕ) :
    ymdToOrd year 12 31 = daysBeforeYear year + 365 + if isLeap year then 1 else 0 := by
  cases h : isLeap year <;> simp [ymdToOrd, h, daysBeforeMonth, daysBeforeMonthTable]

/-- The date of an ordinal is a date of the calendar, and has that ordinal. -/
theorem ordToYmd_spec {n : ℕ} (h1 : 1 ≤ n) (hmax : n ≤ maxOrdinal) :
    let (y, m, d) := ordToYmd n
    1 ≤ y ∧ y ≤ 9999 ∧ 1 ≤ m ∧ m ≤ 12 ∧ 1 ≤ d ∧ d ≤ daysInMonth (isLeap y) m ∧
      ymdToOrd y m d = n := by
  simp only [maxOrdinal] at hmax
  obtain ⟨a, ha⟩ : ∃ a, a = (n - 1) / 146097 := ⟨_, rfl⟩
  obtain ⟨b, hb⟩ : ∃ b, b = (n - 1) % 146097 / 36524 := ⟨_, rfl⟩
  obtain ⟨c, hc⟩ : ∃ c, c = (n - 1) % 146097 % 36524 / 1461 := ⟨_, rfl⟩
  obtain ⟨d, hd⟩ : ∃ d, d = (n - 1) % 146097 % 36524 % 1461 / 365 := ⟨_, rfl⟩
  obtain ⟨e, he⟩ : ∃ e, e = (n - 1) % 146097 % 36524 % 1461 % 365 := ⟨_, rfl⟩
  have hn : n = 146097 * a + 36524 * b + 1461 * c + 365 * d + e + 1 := by omega
  simp only [ordToYmd, ← ha, ← hb, ← hc, ← hd, ← he]
  split
  · -- the last day of a cycle: 31 December of the year before, a leap year
    rename_i hlast
    have hday : ∀ leap, 31 ≤ daysInMonth leap 12 := by decide
    refine ⟨by omega, by omega, by omega, by omega, by omega, hday _, ?_⟩
    rw [ymdToOrd_last]
    rcases hlast with hd4 | hb4
    · have hy : a * 400 + 1 + b * 100 + c * 4 + d - 1 = a * 400 + 1 + b * 100 + c * 4 + 3 := by
        omega
      have hleap : isLeap (a * 400 + 1 + b * 100 + c * 4 + 3) = true := by
        rw [isLeap_of_cycle a b c 3 (by omega) (by omega) (by omega)]
        simp only [beq_self_eq_true, Bool.true_and, Bool.or_eq_true, beq_iff_eq, bne_iff_ne]
        omega
      rw [hy, daysBeforeYear_of_cycle a b c 3 (by omega) (by omega) (by omega), hleap]
      simp only [if_true]
      omega
    · have hy : a * 400 + 1 + b * 100 + c * 4 + d - 1 = a * 400 + 1 + 3 * 100 + 24 * 4 + 3 := by
        omega
      have hleap : isLeap (a * 400 + 1 + 3 * 100 + 24 * 4 + 3) = true := by
        rw [isLeap_of_cycle a 3 24 3 (by omega) (by omega) (by omega)]
        rfl
      rw [hy, daysBeforeYear_of_cycle a 3 24 3 (by omega) (by omega) (by omega), hleap]
      simp only [if_true]
      omega
  · rename_i hlast
    rw [not_or] at hlast
    have hb3 : b ≤ 3 := by omega
    have hc24 : c ≤ 24 := by omega
    have hd3 : d ≤ 3 := by omega
    have hleap := isLeap_of_cycle a b c d hb3 hc24 hd3
    have hyear := daysBeforeYear_of_cycle a b c d hb3 hc24 hd3
    have hmd := monthDay_spec (d == 3 && (c != 24 || b == 3)) e (by omega) (Or.inr (by omega))
    generalize monthDay (d == 3 && (c != 24 || b == 3)) e = md at hmd
    obtain ⟨m, dd⟩ := md
    obtain ⟨hm1, hm12, hd1, hdd, hord⟩ := hmd
    refine ⟨by omega, by omega, hm1, hm12, hd1, by rw [hleap]; exact hdd, ?_⟩
    simp only [ymdToOrd, hleap, hyear]
    omega

/-! ### Instants -/

/-- Microseconds in a day. -/
def microsPerDay : ℕ := 86400000000

/-- An aware datetime, by its instant: microseconds since 0001-01-01T00:00:00
UTC, no later than year 9999. -/
structure DateTime where
  micros : ℕ
  inRange : micros < maxOrdinal * microsPerDay
deriving DecidableEq

namespace DateTime

instance : LE DateTime := ⟨fun a b => a.micros ≤ b.micros⟩

instance (a b : DateTime) : Decidable (a ≤ b) := inferInstanceAs (Decidable (a.micros ≤ b.micros))

theorem le_def (a b : DateTime) : a ≤ b ↔ a.micros ≤ b.micros := Iff.rfl

/-- Midnight of the first day. -/
theorem zero_inRange : 0 < maxOrdinal * microsPerDay := by decide

/-- Noon of the first day. -/
theorem noon_inRange : 43200000000 < maxOrdinal * microsPerDay := by decide

/-- `d + timedelta(seconds=n)`; `none` is an `OverflowError`. -/
def addSeconds (d : DateTime) (n : ℤ) : Option DateTime :=
  if h : 0 ≤ (d.micros : ℤ) + n * 1000000 ∧
      ((d.micros : ℤ) + n * 1000000).toNat < maxOrdinal * microsPerDay then
    some ⟨((d.micros : ℤ) + n * 1000000).toNat, h.2⟩
  else none

theorem addSeconds_micros {d d' : DateTime} {n : ℤ} (h : d.addSeconds n = some d') :
    (d'.micros : ℤ) = d.micros + n * 1000000 := by
  unfold addSeconds at h
  split at h
  · rename_i hb
    cases h
    simp [Int.toNat_of_nonneg hb.1]
  · cases h

end DateTime

/-! ### `isoformat` -/

/-- The last `k` decimal digits of a number. -/
def pad : ℕ → ℕ → List Char
  | 0, _ => []
  | k + 1, n => pad k (n / 10) ++ [Nat.digitChar (n % 10)]

/-- `d.isoformat()` of a datetime in UTC. -/
def isoformat (d : DateTime) : String :=
  let (year, month, day) := ordToYmd (d.micros / microsPerDay + 1)
  let t := d.micros % microsPerDay
  let us := t % 1000000
  let secs := t / 1000000
  let fraction := if us = 0 then [] else '.' :: pad 6 us
  String.ofList (pad 4 year ++ '-' :: pad 2 month ++ '-' :: pad 2 day ++
    'T' :: pad 2 (secs / 3600) ++ ':' :: pad 2 (secs / 60 % 60) ++
    ':' :: pad 2 (secs % 60) ++ fraction ++ "+00:00".toList)

/-! ### `fromisoformat` -/

/-- The value of a digit. -/
def isoDigit? (c : Char) : Option ℕ :=
  if '0' ≤ c ∧ c ≤ '9' then some (c.toNat - '0'.toNat) else none

/-- The value of a run of digits, `acc` being the value so far. -/
def isoDigits? (acc : ℕ) : List Char → Option ℕ
  | [] => some acc
  | c :: cs => do
    let d ← isoDigit? c
    isoDigits? (10 * acc + d) cs

/-- Exactly `k` digits at the front, with the rest. -/
def takeDigits? (k : ℕ) (s : List Char) : Option (ℕ × List Char) :=
  if s.length < k then none else (isoDigits? 0 (s.take k)).map fun n => (n, s.drop k)

/-- `_find_isoformat_datetime_separator`: where the date ends. -/
def separatorLocation (s : List Char) : Option ℕ :=
  if s.length = 7 then some 7
  else if s[4]? = some '-' then
    if s[5]? = some 'W' then
      if 8 < s.length ∧ s[8]? = some '-' then
        if s.length = 9 then none
        else if 10 < s.length ∧ (s[10]?.bind isoDigit?).isSome then some 8
        else some 10
      else some 8
    else some 10
  else if s[4]? = some 'W' then
    let idx := 7 + ((s.drop 7).takeWhile fun c => (isoDigit? c).isSome).length
    if idx < 9 then some idx else if idx % 2 = 0 then some 7 else some 8
  else some 8

/-- `_isoweek_to_gregorian`, as an ordinal. -/
def isoWeekToOrd (year week day : ℕ) : Option ℕ :=
  let first := ymdToOrd year 1 1
  let long := first % 7 = 4 ∨ (first % 7 = 3 ∧ isLeap year)
  if ¬ (1 ≤ year ∧ year ≤ 9999) then none
  else if ¬ (0 < week ∧ (week < 53 ∨ (week = 53 ∧ long))) then none
  else if ¬ (0 < day ∧ day < 8) then none
  else
    let weekday := (first + 6) % 7
    let monday : ℤ := first - weekday + if 3 < weekday then 7 else 0
    let ord : ℤ := monday + (week - 1) * 7 + (day - 1)
    if 1 ≤ ord ∧ ord ≤ maxOrdinal then some ord.toNat else none

/-- The ordinal of a date of the calendar. -/
def dateToOrd (year month day : ℕ) : Option ℕ :=
  if 1 ≤ year ∧ year ≤ 9999 ∧ 1 ≤ month ∧ month ≤ 12 ∧ 1 ≤ day ∧
      day ≤ daysInMonth (isLeap year) month then
    some (ymdToOrd year month day)
  else none

/-- `_parse_isoformat_date`, as an ordinal. -/
def parseDate (s : List Char) : Option ℕ := do
  let (year, rest) ← takeDigits? 4 s
  let hasSep := rest.head? = some '-'
  let rest := if hasSep then rest.drop 1 else rest
  if rest.head? = some 'W' then
    let (week, rest) ← takeDigits? 2 (rest.drop 1)
    if rest.isEmpty then isoWeekToOrd year week 1
    else if (rest.head? = some '-') ≠ hasSep then none
    else
      let (day, rest) ← takeDigits? 1 (if hasSep then rest.drop 1 else rest)
      if rest.isEmpty then isoWeekToOrd year week day else none
  else
    let (month, rest) ← takeDigits? 2 rest
    if (rest.head? = some '-') ≠ hasSep then none
    else
      let (day, rest) ← takeDigits? 2 (if hasSep then rest.drop 1 else rest)
      if rest.isEmpty then dateToOrd year month day else none

/-- The fraction after the seconds: six digits count, more are cut off. -/
def parseFraction : List Char → Option ℕ
  | [] => some 0
  | c :: cs =>
    if c = '.' ∨ c = ',' then
      match isoDigits? 0 (cs.take 6) with
      | some n =>
        if cs.isEmpty ∨ ¬ (cs.drop 6).all fun c => (isoDigit? c).isSome then none
        else some (n * 10 ^ (6 - cs.length))
      | none => none
    else none

/-- `_parse_hh_mm_ss_ff`: hours, minutes, seconds, microseconds. -/
def parseHhMmSsFf (s : List Char) : Option (ℕ × ℕ × ℕ × ℕ) := do
  let (hour, rest) ← takeDigits? 2 s
  let hasSep := rest.head? = some ':'
  if rest.isEmpty then some (hour, 0, 0, 0)
  else
    let (minute, rest) ← takeDigits? 2 (if hasSep then rest.drop 1 else rest)
    if rest.isEmpty then some (hour, minute, 0, 0)
    else if hasSep ∧ rest.head? ≠ some ':' then none
    else
      let (second, rest) ← takeDigits? 2 (if hasSep then rest.drop 1 else rest)
      let us ← parseFraction rest
      some (hour, minute, second, us)

/-- Microseconds of a time of day, or of an offset. -/
def timeMicros (c : ℕ × ℕ × ℕ × ℕ) : ℕ :=
  ((c.1 * 60 + c.2.1) * 60 + c.2.2.1) * 1000000 + c.2.2.2

/-- Where the offset begins: the first `-`, else the first `+`, else the first
`Z`. -/
def offsetLocation (s : List Char) : Option ℕ :=
  if '-' ∈ s then some (s.idxOf '-')
  else if '+' ∈ s then some (s.idxOf '+')
  else if 'Z' ∈ s then some (s.idxOf 'Z')
  else none

/-- `_parse_isoformat_time`: microseconds of the day, and the offset from UTC
if there is one. -/
def parseTime (s : List Char) : Option (ℕ × Option ℤ) := do
  if s.length < 2 then none
  let loc := offsetLocation s
  let (hour, minute, second, us) ← parseHhMmSsFf (s.take (loc.getD s.length))
  if ¬ (hour < 24 ∧ minute < 60 ∧ second < 60) then none
  let t := timeMicros (hour, minute, second, us)
  match loc with
  | none => some (t, none)
  | some i =>
    if s[i]? = some 'Z' ∧ i + 1 = s.length then some (t, some 0)
    else
      let tz := s.drop (i + 1)
      if tz.length = 0 ∨ tz.length = 1 ∨ tz.length = 3 then none
      let off := timeMicros (← parseHhMmSsFf tz)
      if off < microsPerDay then
        some (t, some (if s[i]? = some '-' then -(off : ℤ) else off))
      else none

/-- A parsed datetime: local microseconds since 0001-01-01, and the offset
from UTC unless it is naive. -/
structure Parsed where
  micros : ℕ
  utcoffset : Option ℤ

/-- The instant of a parsed datetime, a naive one read as UTC. -/
def Parsed.instant (p : Parsed) : ℤ := p.micros - p.utcoffset.getD 0

/-- `datetime.fromisoformat(s)`; `none` is a `ValueError`. -/
def fromisoformat (text : String) : Option Parsed := do
  let s := text.toList
  if s.length < 7 then none
  let loc ← separatorLocation s
  let ord ← parseDate (s.take loc)
  let tstr := s.drop (loc + 1)
  if tstr.isEmpty then some ⟨(ord - 1) * microsPerDay, none⟩
  else
    let (t, off) ← parseTime tstr
    some ⟨(ord - 1) * microsPerDay + t, off⟩

/-! ### The round trip -/

theorem isoDigit?_digitChar {n : ℕ} (h : n < 10) : isoDigit? (Nat.digitChar n) = some n := by
  interval_cases n <;> rfl

@[simp] theorem length_pad (k n : ℕ) : (pad k n).length = k := by
  induction k generalizing n with
  | zero => rfl
  | succ k ih => simp [pad, ih]

theorem isDigit_of_mem_pad {k n : ℕ} {c : Char} (h : c ∈ pad k n) : (isoDigit? c).isSome := by
  induction k generalizing n with
  | zero => simp [pad] at h
  | succ k ih =>
    simp only [pad, List.mem_append, List.mem_singleton] at h
    rcases h with h | rfl
    · exact ih h
    · simp [isoDigit?_digitChar (Nat.mod_lt n (by omega))]

/-- A separator does not occur among digits. -/
theorem notMem_pad {k n : ℕ} {c : Char} (h : isoDigit? c = none) : c ∉ pad k n := by
  intro hc
  have := isDigit_of_mem_pad hc
  simp [h] at this

theorem isoDigits?_append (acc : ℕ) (s t : List Char) :
    isoDigits? acc (s ++ t) = (isoDigits? acc s).bind fun n => isoDigits? n t := by
  induction s generalizing acc with
  | nil => rfl
  | cons c cs ih =>
    simp only [List.cons_append, isoDigits?]
    cases isoDigit? c with
    | none => rfl
    | some d => exact ih _

theorem isoDigits?_pad (k acc n : ℕ) :
    isoDigits? acc (pad k n) = some (acc * 10 ^ k + n % 10 ^ k) := by
  induction k generalizing n with
  | zero => simp [pad, isoDigits?, Nat.mod_one]
  | succ k ih =>
    have hd := isoDigit?_digitChar (Nat.mod_lt n (by omega : 10 > 0))
    have hmod : n % 10 ^ (k + 1) = 10 * (n / 10 % 10 ^ k) + n % 10 := by
      rw [pow_succ, Nat.mul_comm, Nat.mod_mul]
      omega
    simp only [pad, isoDigits?_append, ih, Option.bind_some, isoDigits?, hd,
      Option.bind_eq_bind, Option.some.injEq]
    rw [hmod, pow_succ]
    ring

theorem takeDigits?_pad {k n : ℕ} (h : n < 10 ^ k) (rest : List Char) :
    takeDigits? k (pad k n ++ rest) = some (n, rest) := by
  have hlen : ¬ (pad k n ++ rest).length < k := by simp
  rw [takeDigits?, if_neg hlen, List.take_left' (length_pad k n), isoDigits?_pad,
    List.drop_left' (length_pad k n)]
  simp [Nat.mod_eq_of_lt h]

/-- The first digit of a padded number is no separator. -/
theorem head?_pad_ne {k n : ℕ} {c : Char} (h : isoDigit? c = none) (rest : List Char) :
    (pad (k + 1) n ++ rest).head? ≠ some c := by
  intro hc
  rw [List.head?_append_of_ne_nil _ (by simp [pad])] at hc
  exact notMem_pad h (List.mem_of_head? hc)

theorem parseDate_pad {year month day : ℕ} (hy : year < 10000) (hm : month < 100)
    (hd : day < 100) :
    parseDate (pad 4 year ++ '-' :: (pad 2 month ++ '-' :: pad 2 day)) =
      dateToOrd year month day := by
  have hday := takeDigits?_pad (k := 2) hd []
  have hW := head?_pad_ne (k := 1) (n := month) (c := 'W') rfl ('-' :: pad 2 day)
  rw [List.append_nil] at hday
  simp only [parseDate, takeDigits?_pad (k := 4) hy, Option.bind_eq_bind, Option.bind_some,
    List.head?_cons, if_true, List.drop_succ_cons, List.drop_zero, if_neg hW,
    takeDigits?_pad (k := 2) hm, hday]
  simp

/-- Six digits after the point are the microseconds. -/
theorem parseFraction_pad {us : ℕ} (h : us < 1000000) :
    parseFraction ('.' :: pad 6 us) = some us := by
  have hd := isoDigits?_pad 6 0 us
  have htake : (pad 6 us).take 6 = pad 6 us := List.take_of_length_le (by simp)
  have hdrop : (pad 6 us).drop 6 = [] := List.drop_of_length_le (by simp)
  have hne : pad 6 us ≠ [] := by simp [pad]
  simp only [parseFraction, true_or, if_true, htake, hd, hdrop]
  simp [hne, Nat.mod_eq_of_lt h]

/-- The time of day as `isoformat` writes it, before the offset. -/
def timeText (secs us : ℕ) : List Char :=
  pad 2 (secs / 3600) ++ ':' :: (pad 2 (secs / 60 % 60) ++ ':' :: (pad 2 (secs % 60) ++
    if us = 0 then [] else '.' :: pad 6 us))

theorem parseHhMmSsFf_timeText {secs us : ℕ} (hs : secs < 86400) (hus : us < 1000000) :
    parseHhMmSsFf (timeText secs us) =
      some (secs / 3600, secs / 60 % 60, secs % 60, us) := by
  have h1 := takeDigits?_pad (k := 2) (n := secs / 3600) (by omega)
  have h2 := takeDigits?_pad (k := 2) (n := secs / 60 % 60) (by omega)
  have h3 := takeDigits?_pad (k := 2) (n := secs % 60) (by omega)
  have hf : parseFraction (if us = 0 then [] else '.' :: pad 6 us) = some us := by
    split
    · rename_i h0
      rw [h0]
      rfl
    · exact parseFraction_pad hus
  simp [parseHhMmSsFf, timeText, h1, h2, h3, hf]

/-- No offset begins inside the time of day. -/
theorem notMem_timeText {c : Char} (hc : isoDigit? c = none) (h1 : c ≠ ':') (h2 : c ≠ '.')
    (secs us : ℕ) : c ∉ timeText secs us := by
  have hp : ∀ k n, c ∉ pad k n := fun k n => notMem_pad hc
  unfold timeText
  split <;> simp [hp, h1, h2]

theorem parseTime_timeText {secs us : ℕ} (hs : secs < 86400) (hus : us < 1000000) :
    parseTime (timeText secs us ++ "+00:00".toList) =
      some (secs * 1000000 + us, some 0) := by
  have hminus : '-' ∉ timeText secs us ++ "+00:00".toList := by
    rw [List.mem_append, not_or]
    exact ⟨notMem_timeText rfl (by decide) (by decide) secs us, by decide⟩
  have hplus : '+' ∉ timeText secs us := notMem_timeText rfl (by decide) (by decide) secs us
  have hloc : offsetLocation (timeText secs us ++ "+00:00".toList) =
      some (timeText secs us).length := by
    rw [offsetLocation, if_neg hminus, if_pos (by simp)]
    rw [List.idxOf_append_of_notMem hplus]
    rfl
  have hlen : ¬ (timeText secs us ++ "+00:00".toList).length < 2 := by simp
  have hat : (timeText secs us ++ "+00:00".toList)[(timeText secs us).length]? = some '+' := by
    rw [List.getElem?_append_right le_rfl, Nat.sub_self]
    rfl
  have hdrop : (timeText secs us ++ "+00:00".toList).drop ((timeText secs us).length + 1) =
      "00:00".toList := by
    rw [← List.drop_drop, List.drop_left]
    rfl
  have hzone : parseHhMmSsFf "00:00".toList = some (0, 0, 0, 0) := by decide +kernel
  simp only [parseTime, if_neg hlen, hloc, Option.getD_some, List.take_left,
    parseHhMmSsFf_timeText hs hus, hat, hdrop, hzone]
  simp [timeMicros, microsPerDay]
  omega

theorem parseTime_of_lt {t : ℕ} (h : t < 86400000000) :
    parseTime (timeText (t / 1000000) (t % 1000000) ++ "+00:00".toList) = some (t, some 0) := by
  have hsum : t / 1000000 * 1000000 + t % 1000000 = t := Nat.div_add_mod' t 1000000
  rw [parseTime_timeText (by omega) (by omega), hsum]

/-- The text of a datetime, as date, separator, time and offset. -/
theorem toList_isoformat (d : DateTime) :
    let (year, month, day) := ordToYmd (d.micros / microsPerDay + 1)
    (isoformat d).toList = (pad 4 year ++ '-' :: (pad 2 month ++ '-' :: pad 2 day)) ++
      'T' :: (timeText (d.micros % microsPerDay / 1000000) (d.micros % microsPerDay % 1000000) ++
        "+00:00".toList) := by
  simp [isoformat, timeText, String.toList_ofList]

theorem daysInMonth_le (leap : Bool) {month : ℕ} (h1 : 1 ≤ month) (h2 : month ≤ 12) :
    daysInMonth leap month ≤ 31 := by
  cases leap <;> interval_cases month <;> decide

/-- In the extended form the date takes ten characters. -/
theorem separatorLocation_extended (year month : ℕ) {rest : List Char} (h : rest ≠ []) :
    separatorLocation (pad 4 year ++ '-' :: (pad 2 month ++ rest)) = some 10 := by
  have hlen : (pad 4 year ++ '-' :: (pad 2 month ++ rest)).length ≠ 7 := by
    have := List.length_pos_iff.mpr h
    simp
    omega
  have hsep : (pad 4 year ++ '-' :: (pad 2 month ++ rest))[4]? = some '-' := by
    rw [List.getElem?_append_right (by simp), length_pad]
    rfl
  have hmonth : (pad 4 year ++ '-' :: (pad 2 month ++ rest))[5]? ≠ some 'W' := by
    rw [List.getElem?_append_right (by simp), length_pad, List.getElem?_cons_succ,
      ← List.head?_eq_getElem?]
    exact head?_pad_ne rfl rest
  rw [separatorLocation, if_neg hlen, if_pos hsep, if_neg hmonth]

/-- **`fromisoformat` reads back what `isoformat` writes**: the same instant,
with offset zero. -/
theorem fromisoformat_isoformat (d : DateTime) :
    fromisoformat (isoformat d) = some ⟨d.micros, some 0⟩ := by
  have hday : d.micros / microsPerDay < maxOrdinal :=
    Nat.div_lt_of_lt_mul (by rw [Nat.mul_comm]; exact d.inRange)
  have htext := toList_isoformat d
  have hymd := ordToYmd_spec (Nat.le_add_left 1 (d.micros / microsPerDay)) hday
  generalize ordToYmd (d.micros / microsPerDay + 1) = ymd at htext hymd
  obtain ⟨year, month, day⟩ := ymd
  obtain ⟨hy1, hy2, hm1, hm2, hd1, hd2, hord⟩ := hymd
  have hd31 := daysInMonth_le (isLeap year) hm1 hm2
  have hvalid : dateToOrd year month day = some (d.micros / microsPerDay + 1) := by
    rw [dateToOrd, if_pos ⟨hy1, hy2, hm1, hm2, hd1, hd2⟩, hord]
  set date := pad 4 year ++ '-' :: (pad 2 month ++ '-' :: pad 2 day) with hdate
  set time := timeText (d.micros % microsPerDay / 1000000)
    (d.micros % microsPerDay % 1000000) ++ "+00:00".toList with htime
  have htext : (isoformat d).toList = date ++ 'T' :: time := htext
  have hparse : parseDate date = some (d.micros / microsPerDay + 1) := by
    rw [hdate, parseDate_pad (by omega) (by omega) (by omega), hvalid]
  have hclock : parseTime time = some (d.micros % microsPerDay, some 0) := by
    exact parseTime_of_lt (Nat.mod_lt _ (by decide))
  have hlen : date.length = 10 := by simp [hdate]
  have hlong : ¬ (date ++ 'T' :: time).length < 7 := by
    rw [List.length_append, hlen]
    omega
  have hloc : separatorLocation (date ++ 'T' :: time) = some 10 := by
    have := separatorLocation_extended year month
      (show '-' :: pad 2 day ++ 'T' :: time ≠ [] by simp)
    simpa [hdate] using this
  have hdrop : (date ++ 'T' :: time).drop 11 = time := by
    rw [show 11 = date.length + 1 by rw [hlen], ← List.drop_drop, List.drop_left]
    rfl
  have hne : time.isEmpty = false := by simp [htime]
  have hwhole : d.micros / microsPerDay * microsPerDay + d.micros % microsPerDay = d.micros :=
    Nat.div_add_mod' _ _
  rw [fromisoformat, htext]
  simp only [if_neg hlong, hloc, Option.bind_eq_bind, Option.bind_some,
    List.take_left' hlen, hparse, hdrop, hne, hclock]
  simp [hwhole]

end Python
