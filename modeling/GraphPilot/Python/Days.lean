/-
The texts of days.

`strftime("%Y-%m-%d")` writes the fields of a date with leading zeros, so the texts are
ordered as the days are.

* `ordinal` — the number of a datetime's day;
* `dayText` — the text of a day;
* `dayText_lt` — a later day has a greater text.
-/
import GraphPilot.Python.Datetime

namespace Python

/-- `d.toordinal()`. -/
def DateTime.ordinal (d : DateTime) : ℕ := d.micros / microsPerDay + 1

/-- `strftime("%Y-%m-%d")` of the day with this number. -/
def dayText (ordinal : ℕ) : String :=
  let (year, month, day) := ordToYmd ordinal
  String.ofList (pad 4 year ++ '-' :: pad 2 month ++ '-' :: pad 2 day)

theorem DateTime.one_le_ordinal (d : DateTime) : 1 ≤ d.ordinal := Nat.le_add_left 1 _

theorem DateTime.ordinal_le (d : DateTime) : d.ordinal ≤ maxOrdinal := by
  have hlt : d.micros / microsPerDay < maxOrdinal := Nat.div_lt_of_lt_mul (by
    rw [Nat.mul_comm]
    exact d.inRange)
  exact hlt

/-! ### Numbers with leading zeros -/

theorem append_lt_append {a b : List Char} (hlength : a.length = b.length) (h : a < b)
    (s t : List Char) : a ++ s < b ++ t := by
  induction a generalizing b with
  | nil =>
    rw [List.length_nil, eq_comm, List.length_eq_zero_iff] at hlength
    rw [hlength] at h
    exact absurd h (List.not_lt_nil _)
  | cons x a ih =>
    cases b with
    | nil => exact absurd h (List.not_lt_nil _)
    | cons y b =>
      simp only [List.length_cons, Nat.add_right_cancel_iff] at hlength
      rw [List.cons_lt_cons_iff] at h
      rw [List.cons_append, List.cons_append, List.cons_lt_cons_iff]
      rcases h with h | ⟨rfl, h⟩
      · exact Or.inl h
      · exact Or.inr ⟨rfl, ih hlength h⟩

theorem digitChar_lt : ∀ m < 10, ∀ n < m, Nat.digitChar n < Nat.digitChar m := by
  decide

theorem pad_lt {k m n : ℕ} (hmn : m < n) (hn : n < 10 ^ k) : pad k m < pad k n := by
  induction k generalizing m n with
  | zero =>
    rw [pow_zero] at hn
    omega
  | succ k ih =>
    simp only [pad]
    rcases Nat.lt_or_ge (m / 10) (n / 10) with hlt | hge
    · have hbound : n / 10 < 10 ^ k := by
        rw [pow_succ] at hn
        omega
      exact append_lt_append (by simp) (ih hlt hbound) _ _
    · -- the numbers differ in the last digit
      have heq : m / 10 = n / 10 := by omega
      rw [heq]
      refine List.append_left_lt ?_
      rw [List.cons_lt_cons_iff]
      exact Or.inl (digitChar_lt _ (Nat.mod_lt _ (by omega)) _ (by omega))

/-! ### Days in order -/

/-- The number of days before the end of a month. -/
theorem daysBeforeMonth_mono : ∀ leap : Bool, ∀ m' < 13, ∀ m < m', 1 ≤ m →
    daysBeforeMonth leap m + daysInMonth leap m ≤ daysBeforeMonth leap m' := by
  decide

theorem daysBeforeMonth_le : ∀ leap : Bool, ∀ m < 13, 1 ≤ m →
    daysBeforeMonth leap m + daysInMonth leap m ≤ 365 + if leap then 1 else 0 := by
  decide

/-- The quotients that change with a year. -/
theorem div_of_one_le {n k : ℕ} (h : 1 ≤ n) :
    n / k = (n - 1) / k + if n % k = 0 then 1 else 0 := by
  obtain ⟨m, rfl⟩ : ∃ m, n = m + 1 := ⟨n - 1, by omega⟩
  rw [Nat.succ_div, Nat.add_sub_cancel]
  simp only [Nat.dvd_iff_mod_eq_zero]

theorem daysBeforeYear_succ {year : ℕ} (h : 1 ≤ year) :
    daysBeforeYear (year + 1) = daysBeforeYear year + 365 + if isLeap year then 1 else 0 := by
  have h4 := div_of_one_le (k := 4) h
  have h100 := div_of_one_le (k := 100) h
  have h400 := div_of_one_le (k := 400) h
  have hle : (year - 1) / 100 ≤ (year - 1) / 4 := by omega
  simp only [daysBeforeYear, Nat.add_sub_cancel]
  rw [h4, h100, h400]
  by_cases hfour : year % 4 = 0
  · by_cases hcentury : year % 100 = 0
    · by_cases hcycle : year % 400 = 0
      · simp only [isLeap, hfour, hcentury, hcycle]
        simp only [if_true, beq_self_eq_true, Bool.or_true, Bool.and_self]
        omega
      · simp [isLeap, hfour, hcentury, hcycle]
        omega
    · have hcycle : year % 400 ≠ 0 := by omega
      simp [isLeap, hfour, hcentury, hcycle]
      omega
  · have hcentury : year % 100 ≠ 0 := by omega
    have hcycle : year % 400 ≠ 0 := by omega
    simp [isLeap, hfour, hcentury, hcycle]
    omega

theorem daysBeforeYear_mono {y y' : ℕ} (h1 : 1 ≤ y) (h : y < y') :
    daysBeforeYear y + 365 + (if isLeap y then 1 else 0) ≤ daysBeforeYear y' := by
  induction y' with
  | zero => omega
  | succ y' ih =>
    rcases Nat.lt_or_ge y y' with hlt | hge
    · have hsucc := daysBeforeYear_succ (h1.trans hlt.le)
      have hbefore := ih hlt
      omega
    · have heq : y = y' := by omega
      rw [heq] at h1 ⊢
      rw [daysBeforeYear_succ h1]

/-- A later day has a greater text. -/
theorem dayText_lt {m n : ℕ} (h1 : 1 ≤ m) (hmn : m < n) (hmax : n ≤ maxOrdinal) :
    dayText m < dayText n := by
  have hm := ordToYmd_spec h1 (hmn.le.trans hmax)
  have hn := ordToYmd_spec (h1.trans hmn.le) hmax
  unfold dayText
  generalize ordToYmd m = a at hm
  generalize ordToYmd n = b at hn
  obtain ⟨y, mo, d⟩ := a
  obtain ⟨y', mo', d'⟩ := b
  obtain ⟨hy1, hy, hmo1, hmo, hd1, hd, hord⟩ := hm
  obtain ⟨hy1', hy', hmo1', hmo', hd1', hd', hord'⟩ := hn
  rw [ymdToOrd] at hord hord'
  have hlen := daysBeforeMonth_le (isLeap y) mo (by omega) hmo1
  have hlen' := daysBeforeMonth_le (isLeap y') mo' (by omega) hmo1'
  have hd99 : daysInMonth (isLeap y') mo' < 100 := by
    have hsum : 0 ≤ daysBeforeMonth (isLeap y') mo' := Nat.zero_le _
    have hall : ∀ leap : Bool, ∀ m < 13, daysInMonth leap m < 100 := by decide
    exact hall _ _ (by omega)
  show String.ofList _ < String.ofList _
  rw [String.lt_iff, String.toList_ofList, String.toList_ofList]
  rcases Nat.lt_trichotomy y y' with hlt | rfl | hgt
  · simp only [List.append_assoc, List.cons_append]
    exact append_lt_append (by simp) (pad_lt hlt (by omega)) _ _
  · simp only [List.append_assoc, List.cons_append]
    refine List.append_left_lt ?_
    rw [List.cons_lt_cons_iff]
    refine Or.inr ⟨rfl, ?_⟩
    rcases Nat.lt_trichotomy mo mo' with hlt | rfl | hgt
    · exact append_lt_append (by simp) (pad_lt hlt (by omega)) _ _
    · refine List.append_left_lt ?_
      rw [List.cons_lt_cons_iff]
      exact Or.inr ⟨rfl, pad_lt (by omega) (by omega)⟩
    · have hmono := daysBeforeMonth_mono (isLeap y) mo (by omega) mo' hgt hmo1'
      omega
  · have hmono := daysBeforeYear_mono hy1' hgt
    omega

end Python
