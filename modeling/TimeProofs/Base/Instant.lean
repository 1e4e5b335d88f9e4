import TimeProofs.Base.Timestamp
import Mathlib.Algebra.Order.Floor.Ring
import Mathlib.Data.List.TakeWhile
import Mathlib.Data.Rat.Floor
import Mathlib.Tactic.Linarith
import Mathlib.Tactic.Positivity
import Mathlib.Tactic.Ring

/-!
# Timestamps and exact instants

The form of a timestamp as a grammar, which the pattern reads, and the instant that a timestamp
denotes as an exact number of milliseconds. `Date.parse` keeps the whole milliseconds of it.
-/

namespace TimeProofs.Base

/-- A numeral of the given width. -/
structure IsNumeral (width n : Nat) (text : JsString) : Prop where
  length_eq : text.length = width
  digits : ∀ c ∈ text, isDigit c = true
  value_eq : digitsValue text = n

theorem digitsValue_append (s t : JsString) :
    digitsValue (s ++ t) = digitsValue s * 10 ^ t.length + digitsValue t := by
  induction t using List.reverseRecOn with
  | nil => simp [digitsValue]
  | append_singleton t c ih =>
    rw [← List.append_assoc, digitsValue_append_singleton, digitsValue_append_singleton, ih,
      List.length_append, List.length_singleton, pow_succ]
    ring

theorem digitsValue_lt {s : JsString} (h : ∀ c ∈ s, isDigit c = true) :
    digitsValue s < 10 ^ s.length := by
  induction s using List.reverseRecOn with
  | nil => simp [digitsValue]
  | append_singleton s c ih =>
    have hs := ih fun d hd ↦ h d (List.mem_append_left _ hd)
    have hc := h c (List.mem_append_right _ (List.mem_singleton_self c))
    simp only [isDigit, Bool.and_eq_true, decide_eq_true_eq] at hc
    rw [digitsValue_append_singleton, List.length_append, List.length_singleton, pow_succ]
    omega

/-- An optional full stop with one to nine digits. -/
inductive FractionText : JsString → JsString → Prop
  | absent : FractionText [] []
  | digits {digits : JsString} : 1 ≤ digits.length → digits.length ≤ 9 →
      (∀ c ∈ digits, isDigit c = true) → FractionText digits (0x2E :: digits)

/-- `YYYY-MM-DDTHH:MM:SS`, an optional fraction and `Z`. -/
inductive TimestampFields.Spells (f : TimestampFields) : JsString → Prop
  | intro {year month day hour minute second fraction : JsString} : IsNumeral 4 f.year year →
      IsNumeral 2 f.month month → IsNumeral 2 f.day day → IsNumeral 2 f.hour hour →
      IsNumeral 2 f.minute minute → IsNumeral 2 f.second second →
      FractionText f.fraction fraction →
      f.Spells (year ++ 0x2D :: (month ++ 0x2D :: (day ++ 0x54 :: (hour ++ 0x3A ::
        (minute ++ 0x3A :: (second ++ (fraction ++ [0x5A])))))))

theorem readDigits_eq_some {n v : Nat} {s rest : JsString} :
    readDigits n s = some (v, rest) ↔ ∃ text, IsNumeral n v text ∧ s = text ++ rest := by
  unfold readDigits
  constructor
  · intro h
    split at h
    · next hdigits =>
      cases h
      exact ⟨s.take n, ⟨hdigits.1, List.all_eq_true.mp hdigits.2, rfl⟩,
        (List.take_append_drop n s).symm⟩
    · cases h
  · rintro ⟨text, ⟨hlength, hdigits, hvalue⟩, rfl⟩
    have htake : (text ++ rest).take n = text := by
      rw [← hlength, List.take_left]
    have hdrop : (text ++ rest).drop n = rest := by
      rw [← hlength, List.drop_left]
    rw [htake, hdrop, if_pos ⟨hlength, List.all_eq_true.mpr hdigits⟩, hvalue]

theorem readUnit_eq_some {c : CodeUnit} {s rest : JsString} :
    readUnit c s = some rest ↔ s = c :: rest := by
  cases s with
  | nil => simp [readUnit]
  | cons d s =>
    simp only [readUnit, List.cons.injEq]
    split
    · next h => simp [h]
    · next h => simp [h]

theorem readFraction_eq_some {s digits : JsString} :
    readFraction s = some (digits, [0x5A]) ↔
      ∃ text, FractionText digits text ∧ s = text ++ [0x5A] := by
  unfold readFraction
  constructor
  · intro h
    split at h
    · next hstop =>
      dsimp only at h
      split at h
      · next hlength =>
        obtain ⟨rfl, hrest⟩ := Prod.mk.inj (Option.some.inj h)
        cases s with
        | nil => cases hstop
        | cons c s =>
          obtain rfl : c = 0x2E := Option.some.inj hstop
          refine ⟨_, .digits hlength.1 hlength.2 fun c hc ↦ ?_, ?_⟩
          · exact List.mem_takeWhile_imp hc
          · rw [List.cons_append, ← hrest]
            exact congrArg (List.cons 0x2E) (List.takeWhile_append_dropWhile).symm
      · cases h
    · cases h
      exact ⟨[], .absent, rfl⟩
  · rintro ⟨text, htext, rfl⟩
    cases htext with
    | absent => rfl
    | digits hpos hle hdigits =>
      have htake : (digits ++ [0x5A]).takeWhile isDigit = digits := by
        rw [List.takeWhile_append_of_pos hdigits]
        exact List.append_nil digits
      have hdrop : (digits ++ [0x5A]).dropWhile isDigit = [0x5A] := by
        rw [List.dropWhile_append_of_pos hdigits]
        rfl
      rw [List.cons_append, if_pos (by simp)]
      dsimp only [List.tail_cons]
      rw [htake, hdrop, if_pos ⟨hpos, hle⟩]

/-- The pattern reads exactly the texts of the form. -/
theorem readTimestamp_eq_some {s : JsString} {f : TimestampFields} :
    readTimestamp s = some f ↔ f.Spells s := by
  simp only [readTimestamp, Option.bind_eq_bind, Option.bind_eq_some_iff, Prod.exists,
    readDigits_eq_some, readUnit_eq_some]
  constructor
  · rintro ⟨year, _, ⟨yearText, hyear, rfl⟩, _, rfl, month, _, ⟨monthText, hmonth, rfl⟩, _, rfl,
      day, _, ⟨dayText, hday, rfl⟩, _, rfl, hour, _, ⟨hourText, hhour, rfl⟩, _, rfl, minute, _,
      ⟨minuteText, hminute, rfl⟩, _, rfl, second, _, ⟨secondText, hsecond, rfl⟩, fraction, rest,
      hfraction, hend⟩
    split at hend
    · next hrest =>
      cases hend
      rw [hrest, readFraction_eq_some] at hfraction
      obtain ⟨fractionText, hfraction, rfl⟩ := hfraction
      exact .intro hyear hmonth hday hhour hminute hsecond hfraction
    · cases hend
  · rintro ⟨hyear, hmonth, hday, hhour, hminute, hsecond, hfraction⟩
    refine ⟨_, _, ⟨_, hyear, rfl⟩, _, rfl, _, _, ⟨_, hmonth, rfl⟩, _, rfl, _, _,
      ⟨_, hday, rfl⟩, _, rfl, _, _, ⟨_, hhour, rfl⟩, _, rfl, _, _, ⟨_, hminute, rfl⟩, _, rfl,
      _, _, ⟨_, hsecond, rfl⟩, _, _, readFraction_eq_some.mpr ⟨_, hfraction, rfl⟩, ?_⟩
    exact if_pos rfl

/-- A string that is a timestamp of the form, on a day of the calendar and at a time of day. -/
def CalendarTimestamp (s : JsString) (f : TimestampFields) : Prop :=
  f.Spells s ∧ ValidDate f.year f.month f.day ∧ ValidTime f.hour f.minute f.second

/-- A text spells one timestamp only. -/
theorem CalendarTimestamp.fields_eq {s : JsString} {f g : TimestampFields}
    (hf : CalendarTimestamp s f) (hg : CalendarTimestamp s g) : f = g := by
  have hread := readTimestamp_eq_some.mpr hf.1
  rw [readTimestamp_eq_some.mpr hg.1] at hread
  exact (Option.some.inj hread).symm

theorem validTimestampText_iff_calendar (s : JsString) :
    validTimestampText s = true ↔ ∃ f, CalendarTimestamp s f ∧ 100 ≤ f.year := by
  rw [validTimestampText_iff]
  simp only [CalendarTimestamp, readTimestamp_eq_some, and_assoc]

/-- The instant of a timestamp in milliseconds since the epoch. -/
def TimestampFields.instant (f : TimestampFields) : ℚ :=
  timeValue f.year f.month f.day f.hour f.minute f.second 0 +
    1000 * digitsValue f.fraction / 10 ^ f.fraction.length

theorem fractionMs_eq {fraction : JsString} (h : ∀ c ∈ fraction, isDigit c = true) :
    fractionMs fraction = 1000 * digitsValue fraction / 10 ^ fraction.length := by
  unfold fractionMs
  rcases Nat.lt_or_ge 3 fraction.length with hlt | hle
  · rw [List.take_append_of_le_length (by omega)]
    obtain ⟨k, hk⟩ : ∃ k, fraction.length = 3 + k := ⟨fraction.length - 3, by omega⟩
    have hdrop : (fraction.drop 3).length = k := by
      rw [List.length_drop]
      omega
    have hlt' := digitsValue_lt fun c (hc : c ∈ fraction.drop 3) ↦ h c (List.mem_of_mem_drop hc)
    have hvalue := digitsValue_append (fraction.take 3) (fraction.drop 3)
    rw [hdrop] at hlt' hvalue
    rw [List.take_append_drop] at hvalue
    rw [hvalue, hk, pow_add, show (10 : Nat) ^ 3 = 1000 from rfl,
      Nat.mul_div_mul_left _ _ (by decide), mul_comm (digitsValue _) (10 ^ k),
      Nat.mul_add_div (by positivity), Nat.div_eq_of_lt hlt', Nat.add_zero]
  · obtain ⟨k, hk⟩ : ∃ k, k + fraction.length = 3 := ⟨3 - fraction.length, by omega⟩
    have hzeros : (fraction ++ [digitUnit 0, digitUnit 0, digitUnit 0]).take 3 =
        fraction ++ List.replicate k (digitUnit 0) := by
      rw [List.take_append, List.take_of_length_le hle]
      have hk' : 3 - fraction.length = k := by omega
      have hk'' : k = 0 ∨ k = 1 ∨ k = 2 ∨ k = 3 := by omega
      rw [hk']
      rcases hk'' with rfl | rfl | rfl | rfl <;> rfl
    have hvalue : digitsValue (List.replicate k (digitUnit 0)) = 0 := by
      rw [← List.append_nil (List.replicate k (digitUnit 0)), digitsValue_zeros]
      rfl
    rw [hzeros, digitsValue_append, hvalue, List.length_replicate, Nat.add_zero]
    have hpow : 1000 * digitsValue fraction =
        digitsValue fraction * 10 ^ k * 10 ^ fraction.length := by
      rw [mul_assoc, ← pow_add, hk]
      ring
    rw [hpow, Nat.mul_div_cancel _ (by positivity)]

/-- `Date.parse` keeps the whole milliseconds of the instant. -/
theorem parsedTime_eq_floor {f : TimestampFields} {s : JsString} (h : f.Spells s) :
    parsedTime f = ⌊f.instant⌋ := by
  have hdigits : ∀ c ∈ f.fraction, isDigit c = true := by
    cases h with
    | intro _ _ _ _ _ _ hfraction =>
      cases hf : f.fraction with
      | nil => exact fun _ hc ↦ absurd hc List.not_mem_nil
      | cons c rest =>
        rw [hf] at hfraction
        cases hfraction with
        | digits _ _ hdigits => exact hdigits
  have htime : parsedTime f =
      timeValue f.year f.month f.day f.hour f.minute f.second 0 + fractionMs f.fraction := by
    unfold parsedTime timeValue
    push_cast
    ring
  have hfloor : ⌊(1000 * digitsValue f.fraction / 10 ^ f.fraction.length : ℚ)⌋ =
      ((1000 * digitsValue f.fraction / 10 ^ f.fraction.length : Nat) : Int) := by
    have := Rat.floor_natCast_div_natCast (1000 * digitsValue f.fraction)
      (10 ^ f.fraction.length)
    push_cast at this ⊢
    exact this
  rw [htime, TimestampFields.instant, Int.floor_intCast_add, hfloor, fractionMs_eq hdigits]

end TimeProofs.Base
