import TimeProofs.Base.Utf16

/-!
# The proleptic Gregorian calendar and ISO timestamps

The date algorithms of ECMAScript over integers: day numbers from civil dates and back, the
printed form of `Date.prototype.toISOString` and its reading. Day numbers and civil dates
correspond one to one, so a printed instant is read back exactly.
-/

namespace TimeProofs.Base

/-- `DayFromYear`: the day number of the first of January. -/
def dayFromYear (y : Int) : Int :=
  365 * (y - 1970) + (y - 1969) / 4 - (y - 1901) / 100 + (y - 1601) / 400

/-- The leap-year rule. -/
def isLeap (y : Int) : Bool := y % 4 = 0 && (y % 100 ≠ 0 || y % 400 = 0)

/-- The number of days of a year. -/
def daysInYear (y : Int) : Int := if isLeap y then 366 else 365

theorem dayFromYear_succ (y : Int) : dayFromYear (y + 1) = dayFromYear y + daysInYear y := by
  unfold dayFromYear daysInYear isLeap
  simp only [Bool.and_eq_true, Bool.or_eq_true, decide_eq_true_eq]
  split <;> omega

/-- Later years start later. -/
theorem dayFromYear_lt {y z : Int} (h : y < z) : dayFromYear y + 365 ≤ dayFromYear z := by
  unfold dayFromYear
  omega

/-- `YearFromTime` of a day number. -/
def yearOfDay (d : Int) : Int :=
  let y := 400 * d / 146097 + 1970
  if dayFromYear (y + 1) ≤ d then y + 1 else if d < dayFromYear y then y - 1 else y

theorem yearOfDay_bounds (d : Int) :
    dayFromYear (yearOfDay d) ≤ d ∧ d < dayFromYear (yearOfDay d + 1) := by
  unfold yearOfDay
  dsimp only
  split
  · next h =>
    refine ⟨h, ?_⟩
    unfold dayFromYear
    omega
  split
  · next h =>
    rw [Int.sub_add_cancel]
    refine ⟨?_, h⟩
    unfold dayFromYear
    omega
  · next h₁ h₂ => exact ⟨Int.not_lt.mp h₂, Int.not_le.mp h₁⟩

/-- A day number lies in one year only. -/
theorem yearOfDay_eq {d y : Int} (h₁ : dayFromYear y ≤ d) (h₂ : d < dayFromYear (y + 1)) :
    yearOfDay d = y := by
  obtain ⟨hb₁, hb₂⟩ := yearOfDay_bounds d
  rcases Int.lt_trichotomy (yearOfDay d) y with hlt | heq | hgt
  · have : dayFromYear (yearOfDay d + 1) ≤ dayFromYear y := by
      rcases Int.lt_or_eq_of_le (Int.add_one_le_of_lt hlt) with h | h
      · have := dayFromYear_lt h
        omega
      · rw [h]
    omega
  · exact heq
  · have : dayFromYear (y + 1) ≤ dayFromYear (yearOfDay d) := by
      rcases Int.lt_or_eq_of_le (Int.add_one_le_of_lt hgt) with h | h
      · have := dayFromYear_lt h
        omega
      · rw [h]
    omega

/-- The days of a year before the given month, counted from one. -/
def daysBeforeMonth (leap : Bool) (month : Nat) : Nat :=
  let extra := if leap then 1 else 0
  match month with
  | 1 => 0
  | 2 => 31
  | 3 => 59 + extra
  | 4 => 90 + extra
  | 5 => 120 + extra
  | 6 => 151 + extra
  | 7 => 181 + extra
  | 8 => 212 + extra
  | 9 => 243 + extra
  | 10 => 273 + extra
  | 11 => 304 + extra
  | 12 => 334 + extra
  | _ => 365 + extra

/-- The number of days of a month. -/
def daysInMonth (leap : Bool) (month : Nat) : Nat :=
  daysBeforeMonth leap (month + 1) - daysBeforeMonth leap month

/-- The month of a day of the year, counted from zero. -/
def monthOfYearDay (leap : Bool) (n : Nat) : Nat :=
  ((List.range 12).filter fun k ↦ daysBeforeMonth leap (k + 1) ≤ n).length

private theorem monthOfYearDay_spec : ∀ leap, ∀ n : Fin 366, (leap = true ∨ n.1 < 365) →
    1 ≤ monthOfYearDay leap n ∧ monthOfYearDay leap n ≤ 12 ∧
      daysBeforeMonth leap (monthOfYearDay leap n) ≤ n.1 ∧
      n.1 < daysBeforeMonth leap (monthOfYearDay leap n + 1) := by
  decide +kernel

private theorem daysBeforeMonth_mono : ∀ leap, ∀ m k : Fin 14, 1 ≤ m.1 → m.1 ≤ k.1 →
    daysBeforeMonth leap m ≤ daysBeforeMonth leap k := by
  decide +kernel

private theorem daysBeforeMonth_last (leap : Bool) :
    daysBeforeMonth leap 13 = if leap then 366 else 365 := by
  cases leap <;> rfl

/-- A civil date that exists. -/
structure ValidDate (y : Int) (month day : Nat) : Prop where
  month_pos : 1 ≤ month
  month_le : month ≤ 12
  day_pos : 1 ≤ day
  day_le : day ≤ daysInMonth (isLeap y) month

/-- `MakeDay` of a year, a month and a day, both counted from one. -/
def makeDay (y : Int) (month day : Nat) : Int :=
  dayFromYear y + daysBeforeMonth (isLeap y) month + day - 1

/-- The civil date of a day number. -/
def civilOfDay (d : Int) : Int × Nat × Nat :=
  let y := yearOfDay d
  let n := (d - dayFromYear y).toNat
  let month := monthOfYearDay (isLeap y) n
  (y, month, n - daysBeforeMonth (isLeap y) month + 1)

private theorem monthOfYearDay_bounds {y : Int} {n : Nat} (h : (n : Int) < daysInYear y) :
    1 ≤ monthOfYearDay (isLeap y) n ∧ monthOfYearDay (isLeap y) n ≤ 12 ∧
      daysBeforeMonth (isLeap y) (monthOfYearDay (isLeap y) n) ≤ n ∧
      n < daysBeforeMonth (isLeap y) (monthOfYearDay (isLeap y) n + 1) := by
  unfold daysInYear at h
  cases hl : isLeap y with
  | true =>
    rw [hl, if_pos rfl] at h
    exact monthOfYearDay_spec true ⟨n, by omega⟩ (.inl rfl)
  | false =>
    rw [hl, if_neg (by decide)] at h
    exact monthOfYearDay_spec false ⟨n, by omega⟩ (.inr (by dsimp only; omega))

private theorem monthOfYearDay_unique {leap : Bool} {n month m : Nat} (hm₁ : 1 ≤ m)
    (hm₂ : m ≤ 12) (hm₃ : daysBeforeMonth leap m ≤ n)
    (hm₄ : n < daysBeforeMonth leap (m + 1)) (h₁ : 1 ≤ month) (h₂ : month ≤ 12)
    (h₃ : daysBeforeMonth leap month ≤ n) (h₄ : n < daysBeforeMonth leap (month + 1)) :
    m = month := by
  rcases Nat.lt_trichotomy m month with h | h | h
  · have := daysBeforeMonth_mono leap ⟨m + 1, by omega⟩ ⟨month, by omega⟩ (by dsimp only; omega) h
    dsimp only at this
    omega
  · exact h
  · have := daysBeforeMonth_mono leap ⟨month + 1, by omega⟩ ⟨m, by omega⟩ (by dsimp only; omega) h
    dsimp only at this
    omega

/-- The civil date of a day number exists and has that day number. -/
theorem civilOfDay_spec (d : Int) :
    ValidDate (civilOfDay d).1 (civilOfDay d).2.1 (civilOfDay d).2.2 ∧
      makeDay (civilOfDay d).1 (civilOfDay d).2.1 (civilOfDay d).2.2 = d := by
  obtain ⟨h₁, h₂⟩ := yearOfDay_bounds d
  rw [dayFromYear_succ] at h₂
  have hn : ((d - dayFromYear (yearOfDay d)).toNat : Int) = d - dayFromYear (yearOfDay d) :=
    Int.toNat_of_nonneg (by omega)
  obtain ⟨hm₁, hm₂, hm₃, hm₄⟩ := monthOfYearDay_bounds (y := yearOfDay d)
    (n := (d - dayFromYear (yearOfDay d)).toNat) (by omega)
  refine ⟨⟨hm₁, hm₂, by simp only [civilOfDay]; omega, ?_⟩, ?_⟩
  · simp only [civilOfDay, daysInMonth]
    omega
  · simp only [civilOfDay, makeDay]
    omega

/-- The civil date of the day number of an existing date is that date. -/
theorem civilOfDay_makeDay {y : Int} {month day : Nat} (h : ValidDate y month day) :
    civilOfDay (makeDay y month day) = (y, month, day) := by
  obtain ⟨hm₁, hm₂, hd₁, hd₂⟩ := h
  have hlast := daysBeforeMonth_last (isLeap y)
  have hmono := daysBeforeMonth_mono (isLeap y) ⟨month + 1, by omega⟩ ⟨13, by omega⟩
    (by dsimp only; omega) (by dsimp only; omega)
  dsimp only at hmono
  unfold daysInMonth at hd₂
  have hy : yearOfDay (makeDay y month day) = y := by
    apply yearOfDay_eq
    · unfold makeDay
      omega
    · rw [dayFromYear_succ, daysInYear, makeDay]
      split <;> simp_all <;> omega
  have hn : (makeDay y month day - dayFromYear y).toNat =
      daysBeforeMonth (isLeap y) month + day - 1 := by
    unfold makeDay
    omega
  obtain ⟨hb₁, hb₂, hb₃, hb₄⟩ := monthOfYearDay_bounds (y := y)
    (n := daysBeforeMonth (isLeap y) month + day - 1) (by
      unfold daysInYear
      split <;> simp_all <;> omega)
  have hmonth := monthOfYearDay_unique hb₁ hb₂ hb₃ hb₄ hm₁ hm₂ (by omega) (by omega)
  simp only [civilOfDay, hy, hn, hmonth, Prod.mk.injEq, true_and]
  omega

end TimeProofs.Base
