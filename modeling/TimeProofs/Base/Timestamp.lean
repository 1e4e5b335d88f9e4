import TimeProofs.Base.Calendar

/-!
# ISO timestamps

The timestamp form that the verifier accepts, its reading, and the printed form of
`Date.prototype.toISOString`. A timestamp is accepted exactly when its civil date exists and its
year is not one that `Date.UTC` moves to the twentieth century.
-/

namespace TimeProofs.Base

/-- The fields of a timestamp; `fraction` keeps the digits after the full stop. -/
structure TimestampFields where
  year : Nat
  month : Nat
  day : Nat
  hour : Nat
  minute : Nat
  second : Nat
  fraction : JsString

/-- The given number of digits. -/
def readDigits (n : Nat) (s : JsString) : Option (Nat × JsString) :=
  if (s.take n).length = n ∧ (s.take n).all isDigit then some (digitsValue (s.take n), s.drop n)
  else none

/-- One given code unit. -/
def readUnit (c : CodeUnit) : JsString → Option JsString
  | [] => none
  | d :: rest => if d = c then some rest else none

/-- An optional full stop with one to nine digits. -/
def readFraction (s : JsString) : Option (JsString × JsString) :=
  if s.head? = some 0x2E then
    let digits := s.tail.takeWhile isDigit
    if 1 ≤ digits.length ∧ digits.length ≤ 9 then some (digits, s.tail.dropWhile isDigit)
    else none
  else some ([], s)

/-- The pattern of `validUtcTimestamp`, `verify-bundle.mjs:64`, with its groups. -/
def readTimestamp (s : JsString) : Option TimestampFields := do
  let (year, s) ← readDigits 4 s
  let s ← readUnit 0x2D s
  let (month, s) ← readDigits 2 s
  let s ← readUnit 0x2D s
  let (day, s) ← readDigits 2 s
  let s ← readUnit 0x54 s
  let (hour, s) ← readDigits 2 s
  let s ← readUnit 0x3A s
  let (minute, s) ← readDigits 2 s
  let s ← readUnit 0x3A s
  let (second, s) ← readDigits 2 s
  let (fraction, s) ← readFraction s
  if s = [0x5A] then some { year, month, day, hour, minute, second, fraction } else none

/-- Milliseconds of a day. -/
def msPerDay : Int := 86400000

/-- The time value of a civil date and a time of day. -/
def timeValue (year : Int) (month day hour minute second ms : Nat) : Int :=
  makeDay year month day * msPerDay + (((hour * 60 + minute) * 60 + second) * 1000 + ms : Nat)

/-- `Date.UTC(year, month - 1, …)`: years 0 to 99 mean 1900 to 1999. -/
def dateUTC (year month day hour minute second : Nat) : Int :=
  timeValue (if year ≤ 99 then 1900 + year else year) month day hour minute second 0

/-- The fields that the UTC getters of a `Date` read. -/
structure UtcFields where
  year : Int
  month : Nat
  day : Nat
  hour : Nat
  minute : Nat
  second : Nat
  ms : Nat
deriving DecidableEq

/-- The UTC fields of a time value. -/
def utcFields (t : Int) : UtcFields :=
  let (year, month, day) := civilOfDay (t / msPerDay)
  let ms := (t % msPerDay).toNat
  { year, month, day
    hour := ms / 3600000
    minute := ms / 60000 % 60
    second := ms / 1000 % 60
    ms := ms % 1000 }

/-- The body of `validUtcTimestamp`, `verify-bundle.mjs:62–77`, on a string. -/
def validTimestampText (s : JsString) : Bool :=
  match readTimestamp s with
  | none => false
  | some f =>
    if f.month < 1 || f.month > 12 || f.hour > 23 || f.minute > 59 || f.second > 59 then false
    else
      let date := utcFields (dateUTC f.year f.month f.day f.hour f.minute f.second)
      date.year = f.year && date.month = f.month && date.day = f.day && date.hour = f.hour &&
        date.minute = f.minute && date.second = f.second

/-- The milliseconds that the first three digits of a fraction spell. -/
def fractionMs (fraction : JsString) : Nat :=
  digitsValue ((fraction ++ [digitUnit 0, digitUnit 0, digitUnit 0]).take 3)

/-- `Date.parse` of a timestamp of the accepted form: later fraction digits are dropped. -/
def parsedTime (f : TimestampFields) : Int :=
  timeValue f.year f.month f.day f.hour f.minute f.second (fractionMs f.fraction)

/-- `YYYY`, or a sign and six digits outside the years 0 to 9999. -/
def yearText (y : Int) : JsString :=
  if 0 ≤ y ∧ y ≤ 9999 then padStart 4 (decimal y.toNat)
  else (if y < 0 then 0x2D else 0x2B) :: padStart 6 (decimal y.natAbs)

/-- `new Date(t).toISOString()` of a finite time value. -/
def isoText (t : Int) : JsString :=
  let f := utcFields t
  yearText f.year ++ [0x2D] ++ padStart 2 (decimal f.month) ++ [0x2D] ++
    padStart 2 (decimal f.day) ++ [0x54] ++ padStart 2 (decimal f.hour) ++ [0x3A] ++
    padStart 2 (decimal f.minute) ++ [0x3A] ++ padStart 2 (decimal f.second) ++ [0x2E] ++
    padStart 3 (decimal f.ms) ++ [0x5A]

example : isoText 1709210096789 = js "2024-02-29T12:34:56.789Z" := by decide

/-- The time of day lies within the day. -/
structure ValidTime (hour minute second : Nat) : Prop where
  hour_le : hour ≤ 23
  minute_le : minute ≤ 59
  second_le : second ≤ 59

theorem utcFields_timeValue {y : Int} {month day hour minute second ms : Nat}
    (ht : ValidTime hour minute second) (hms : ms ≤ 999) :
    utcFields (timeValue y month day hour minute second ms) =
      { year := (civilOfDay (makeDay y month day)).1
        month := (civilOfDay (makeDay y month day)).2.1
        day := (civilOfDay (makeDay y month day)).2.2
        hour, minute, second, ms } := by
  obtain ⟨hh, hm, hs⟩ := ht
  have hn : ((hour * 60 + minute) * 60 + second) * 1000 + ms < 86400000 := by omega
  have hday : timeValue y month day hour minute second ms / msPerDay = makeDay y month day := by
    unfold timeValue msPerDay
    omega
  have hrest : (timeValue y month day hour minute second ms % msPerDay).toNat =
      ((hour * 60 + minute) * 60 + second) * 1000 + ms := by
    unfold timeValue msPerDay
    omega
  simp only [utcFields, hday, hrest, UtcFields.mk.injEq, true_and]
  omega

/-- The fields of a time value exist on the calendar and give the time value back. -/
theorem utcFields_spec (t : Int) :
    ValidDate (utcFields t).year (utcFields t).month (utcFields t).day ∧
      ValidTime (utcFields t).hour (utcFields t).minute (utcFields t).second ∧
      (utcFields t).ms ≤ 999 ∧
      timeValue (utcFields t).year (utcFields t).month (utcFields t).day (utcFields t).hour
        (utcFields t).minute (utcFields t).second (utcFields t).ms = t := by
  obtain ⟨hd, hmake⟩ := civilOfDay_spec (t / msPerDay)
  have hlt : (t % msPerDay).toNat < 86400000 := by
    unfold msPerDay
    omega
  refine ⟨hd, ⟨?_, ?_, ?_⟩, ?_, ?_⟩
  · simp only [utcFields]
    omega
  · simp only [utcFields]
    omega
  · simp only [utcFields]
    omega
  · simp only [utcFields]
    omega
  · simp only [timeValue, utcFields, hmake]
    unfold msPerDay at *
    omega

/-- A timestamp is accepted when it has the form, exists, and its year is at least 100. -/
theorem validTimestampText_iff (s : JsString) :
    validTimestampText s = true ↔ ∃ f, readTimestamp s = some f ∧
      ValidDate f.year f.month f.day ∧ ValidTime f.hour f.minute f.second ∧ 100 ≤ f.year := by
  unfold validTimestampText
  cases hf : readTimestamp s with
  | none => simp
  | some f =>
    simp only [Option.some.injEq, exists_eq_left']
    split
    · next hr =>
      simp only [Bool.or_eq_true, decide_eq_true_eq] at hr
      simp only [Bool.false_eq_true, false_iff, not_and]
      rintro ⟨h₁, h₂, -, -⟩ ⟨h₃, h₄, h₅⟩
      omega
    · next hr =>
      simp only [Bool.or_eq_true, decide_eq_true_eq, not_or, Nat.not_lt, Nat.not_lt] at hr
      have ht : ValidTime f.hour f.minute f.second := ⟨by omega, by omega, by omega⟩
      rw [dateUTC, utcFields_timeValue ht (by decide)]
      simp only [decide_true, Bool.and_true, Bool.and_eq_true, decide_eq_true_eq]
      constructor
      · rintro ⟨⟨hy, hm⟩, hd⟩
        have hs := (civilOfDay_spec (makeDay (if f.year ≤ 99 then 1900 + f.year else f.year)
          f.month f.day)).1
        rw [hy, hm, hd] at hs
        refine ⟨hs, ht, ?_⟩
        by_contra hlt
        rw [if_pos (by omega)] at hy
        have hb := (yearOfDay_bounds (makeDay (1900 + f.year : Nat) f.month f.day)).2
        rw [show yearOfDay (makeDay (1900 + f.year : Nat) f.month f.day) = f.year from hy] at hb
        have hlater := dayFromYear_lt (y := (f.year : Int) + 1) (z := (1900 + f.year : Nat))
          (by omega)
        unfold makeDay at hb
        omega
      · rintro ⟨hd, -, hy⟩
        rw [if_neg (by omega), civilOfDay_makeDay hd]
        exact ⟨⟨rfl, rfl⟩, rfl⟩

/-! ### Printed timestamps are read back -/

theorem readDigits_append {n : Nat} {ds : JsString} (hl : ds.length = n)
    (hd : ∀ c ∈ ds, isDigit c = true) (rest : JsString) :
    readDigits n (ds ++ rest) = some (digitsValue ds, rest) := by
  have hall : ds.all isDigit = true := List.all_eq_true.mpr hd
  simp [readDigits, ← hl, hall]

private theorem readDigits_pad {n w : Nat} (hw : 0 < w) (h : n < 10 ^ w)
    (rest : JsString) : readDigits w (padStart w (decimal n) ++ rest) = some (n, rest) := by
  obtain ⟨hl, hd, hv⟩ := padStart_decimal hw h
  rw [readDigits_append hl hd, hv]

private theorem readUnit_cons (c : CodeUnit) (rest : JsString) :
    readUnit c (c :: rest) = some rest := by simp [readUnit]

private theorem readFraction_pad {ms : Nat} (h : ms ≤ 999) (rest : JsString)
    (hr : ∀ c ∈ rest.head?, isDigit c = false) :
    readFraction (0x2E :: (padStart 3 (decimal ms) ++ rest)) =
      some (padStart 3 (decimal ms), rest) := by
  obtain ⟨hl, hd, -⟩ := padStart_decimal (w := 3) (by decide) (by omega : ms < 10 ^ 3)
  have htake : (padStart 3 (decimal ms) ++ rest).takeWhile isDigit = padStart 3 (decimal ms) := by
    rw [List.takeWhile_append_of_pos hd]
    cases rest with
    | nil => simp
    | cons c rest =>
      rw [List.takeWhile_cons_of_neg (by simp [hr c rfl]), List.append_nil]
  have hdrop : (padStart 3 (decimal ms) ++ rest).dropWhile isDigit = rest := by
    rw [List.dropWhile_append_of_pos hd]
    cases rest with
    | nil => rfl
    | cons c rest => rw [List.dropWhile_cons_of_neg (by simp [hr c rfl])]
  simp [readFraction, htake, hdrop, hl]

private theorem month_lt {y : Int} {month day : Nat} (h : ValidDate y month day) :
    month < 10 ^ 2 ∧ day < 10 ^ 2 := by
  have hd : ∀ leap, ∀ m : Fin 13, daysInMonth leap m ≤ 31 := by decide
  have := hd (isLeap y) ⟨month, by have := h.month_le; omega⟩
  have := h.day_le
  have := h.month_le
  dsimp only at *
  omega

/-- The fields of an instant of a four-digit year are read back from its printed form. -/
theorem readTimestamp_isoText {t : Int} (h₁ : 0 ≤ (utcFields t).year)
    (h₂ : (utcFields t).year ≤ 9999) :
    readTimestamp (isoText t) = some
      { year := (utcFields t).year.toNat
        month := (utcFields t).month
        day := (utcFields t).day
        hour := (utcFields t).hour
        minute := (utcFields t).minute
        second := (utcFields t).second
        fraction := padStart 3 (decimal (utcFields t).ms) } := by
  obtain ⟨hd, ⟨hh, hm, hs⟩, hms, -⟩ := utcFields_spec t
  obtain ⟨hmonth, hday⟩ := month_lt hd
  have hy : (utcFields t).year.toNat < 10 ^ 4 := by omega
  simp only [readTimestamp, isoText, yearText, h₁, h₂, and_self, if_true, List.append_assoc,
    List.cons_append, List.nil_append, bind, Option.bind, readDigits_pad (by decide) hy,
    readDigits_pad (by decide) hmonth, readDigits_pad (by decide) hday,
    readDigits_pad (w := 2) (by decide) (by omega : (utcFields t).hour < 10 ^ 2),
    readDigits_pad (w := 2) (by decide) (by omega : (utcFields t).minute < 10 ^ 2),
    readDigits_pad (w := 2) (by decide) (by omega : (utcFields t).second < 10 ^ 2),
    readUnit_cons, readFraction_pad hms [0x5A] (by simp [isDigit])]

/-- Outside the years 0 to 9999 the printed form starts with a sign. -/
theorem readTimestamp_isoText_none {t : Int}
    (h : ¬(0 ≤ (utcFields t).year ∧ (utcFields t).year ≤ 9999)) :
    readTimestamp (isoText t) = none := by
  have hdigits (c : CodeUnit) (hc : isDigit c = false) (rest : JsString) :
      readDigits 4 (c :: rest) = none := by
    simp [readDigits, hc]
  have hsign : isDigit (if (utcFields t).year < 0 then 0x2D else 0x2B) = false := by
    split <;> decide
  simp only [readTimestamp, isoText, yearText, if_neg h, List.cons_append, bind, Option.bind,
    hdigits _ hsign]

theorem fractionMs_pad {ms : Nat} (h : ms ≤ 999) :
    fractionMs (padStart 3 (decimal ms)) = ms := by
  obtain ⟨hl, -, hv⟩ := padStart_decimal (w := 3) (by decide) (by omega : ms < 10 ^ 3)
  rw [fractionMs, List.take_append_of_le_length (by omega), List.take_of_length_le (by omega), hv]

/-- A printed instant is accepted as a timestamp exactly in the years 100 to 9999. -/
theorem validTimestampText_isoText (t : Int) :
    validTimestampText (isoText t) = true ↔
      100 ≤ (utcFields t).year ∧ (utcFields t).year ≤ 9999 := by
  rw [validTimestampText_iff]
  by_cases h : 0 ≤ (utcFields t).year ∧ (utcFields t).year ≤ 9999
  · rw [readTimestamp_isoText h.1 h.2]
    obtain ⟨hd, ht, -⟩ := utcFields_spec t
    have hy : ((utcFields t).year.toNat : Int) = (utcFields t).year := Int.toNat_of_nonneg h.1
    simp only [Option.some.injEq, exists_eq_left', hy]
    constructor
    · rintro ⟨-, -, hy⟩
      omega
    · intro hy
      exact ⟨hd, ht, by omega⟩
  · rw [readTimestamp_isoText_none h]
    simp only [reduceCtorEq, false_and, exists_false, false_iff]
    omega

/-- The printed form of an instant is parsed to that instant. -/
theorem parsedTime_isoText {t : Int} {f : TimestampFields} (h₁ : 0 ≤ (utcFields t).year)
    (h₂ : (utcFields t).year ≤ 9999) (hf : readTimestamp (isoText t) = some f) :
    parsedTime f = t := by
  rw [readTimestamp_isoText h₁ h₂] at hf
  obtain rfl := Option.some.inj hf
  obtain ⟨-, -, hms, ht⟩ := utcFields_spec t
  simp only [parsedTime, fractionMs_pad hms, Int.toNat_of_nonneg h₁, ht]

end TimeProofs.Base
