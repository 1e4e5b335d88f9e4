import Mathlib.Data.Nat.Digits.Defs
import Mathlib.Data.Nat.Digits.Lemmas

/-!
# UTF-16 strings, literals and UTF-8 bytes

An ECMAScript string is a sequence of UTF-16 code units with no pairing condition.
Well-formedness, the UTF-8 encoding that replaces unpaired surrogates, and the decimal and
hexadecimal numerals used in identifiers and messages are developed here once.
-/

namespace TimeProofs.Base

/-- A UTF-16 code unit. -/
abbrev CodeUnit := UInt16

/-- An ECMAScript string: any sequence of UTF-16 code units. -/
abbrev JsString := List CodeUnit

instance : LawfulBEq JsString := inferInstance

/-- A string literal of the source. All of them are ASCII, with one byte for each code unit. -/
def js (s : String) : JsString := s.toByteArray.data.toList.map fun b ↦ UInt16.ofNat b.toNat

/-- The code units of one Unicode scalar value. -/
def encodeUtf16 (c : Char) : JsString :=
  if c.toNat < 0x10000 then [UInt16.ofNat c.toNat]
  else [UInt16.ofNat (0xD800 + (c.toNat - 0x10000) / 0x400),
    UInt16.ofNat (0xDC00 + (c.toNat - 0x10000) % 0x400)]

/-- Code units `0xD800` to `0xDBFF`. -/
def isHighSurrogate (c : CodeUnit) : Bool := 0xD800 ≤ c.toNat && c.toNat ≤ 0xDBFF

/-- Code units `0xDC00` to `0xDFFF`. -/
def isLowSurrogate (c : CodeUnit) : Bool := 0xDC00 ≤ c.toNat && c.toNat ≤ 0xDFFF

/-- Every high surrogate is followed by a low one and every low one follows a high one. -/
def wellFormed : JsString → Bool
  | [] => true
  | [c] => !isHighSurrogate c && !isLowSurrogate c
  | c :: next :: rest =>
    if isHighSurrogate c then isLowSurrogate next && wellFormed rest
    else !isLowSurrogate c && wellFormed (next :: rest)

theorem isHighSurrogate_iff (c : CodeUnit) :
    isHighSurrogate c = true ↔ 0xD800 ≤ c.toNat ∧ c.toNat ≤ 0xDBFF := by
  simp [isHighSurrogate]

theorem isLowSurrogate_iff (c : CodeUnit) :
    isLowSurrogate c = true ↔ 0xDC00 ≤ c.toNat ∧ c.toNat ≤ 0xDFFF := by
  simp [isLowSurrogate]

/-- No code unit is both a high and a low surrogate. -/
theorem isLowSurrogate_of_isHighSurrogate {c : CodeUnit} (h : isHighSurrogate c = true) :
    isLowSurrogate c = false := by
  rw [isHighSurrogate_iff] at h
  rw [Bool.eq_false_iff, ne_eq, isLowSurrogate_iff]
  omega

@[simp] theorem wellFormed_nil : wellFormed [] = true := rfl

/-- A unit that is no surrogate does not affect well-formedness. -/
theorem wellFormed_cons_plain {c : CodeUnit} (hh : isHighSurrogate c = false)
    (hl : isLowSurrogate c = false) (rest : JsString) :
    wellFormed (c :: rest) = wellFormed rest := by
  cases rest <;> simp [wellFormed, hh, hl]

/-- Units below the surrogate range are no surrogates. -/
theorem plain_of_lt {c : CodeUnit} (h : c.toNat < 0xD800) :
    isHighSurrogate c = false ∧ isLowSurrogate c = false := by
  constructor
  · rw [Bool.eq_false_iff, ne_eq, isHighSurrogate_iff]
    omega
  · rw [Bool.eq_false_iff, ne_eq, isLowSurrogate_iff]
    omega

/-- A leading unit below the surrogate range does not affect well-formedness. -/
theorem wellFormed_cons_of_lt {c : CodeUnit} (h : c.toNat < 0xD800) (rest : JsString) :
    wellFormed (c :: rest) = wellFormed rest :=
  wellFormed_cons_plain (plain_of_lt h).1 (plain_of_lt h).2 rest

/-- A leading surrogate pair does not affect well-formedness. -/
theorem wellFormed_cons_pair {c next : CodeUnit} (hh : isHighSurrogate c = true)
    (hl : isLowSurrogate next = true) (rest : JsString) :
    wellFormed (c :: next :: rest) = wellFormed rest := by
  simp [wellFormed, hh, hl]

/-- A well-formed string that starts with a high surrogate continues with a low one. -/
theorem exists_low_of_wellFormed {c : CodeUnit} {rest : JsString}
    (hc : isHighSurrogate c = true) (h : wellFormed (c :: rest) = true) :
    ∃ next rest', rest = next :: rest' ∧ isLowSurrogate next = true ∧ wellFormed rest' = true := by
  cases rest with
  | nil => simp [wellFormed, hc] at h
  | cons next rest' =>
    simp only [wellFormed, hc, if_true, Bool.and_eq_true] at h
    exact ⟨next, rest', rfl, h.1, h.2⟩

/-- No well-formed string starts with a low surrogate. -/
theorem not_low_of_wellFormed {c : CodeUnit} {rest : JsString}
    (h : wellFormed (c :: rest) = true) : isLowSurrogate c = false := by
  cases hc : isHighSurrogate c with
  | true => exact isLowSurrogate_of_isHighSurrogate hc
  | false =>
    cases rest <;> simp only [wellFormed, hc, Bool.false_eq_true, if_false, Bool.and_eq_true,
      Bool.not_eq_true'] at h <;> simp_all

/-- The remainder after a unit that is no surrogate is well formed. -/
theorem wellFormed_tail {c : CodeUnit} {rest : JsString} (hc : isHighSurrogate c = false)
    (h : wellFormed (c :: rest) = true) : wellFormed rest = true := by
  rwa [wellFormed_cons_plain hc (not_low_of_wellFormed h)] at h

/-- Induction along the scalar values of a well-formed string. -/
theorem wellFormed_induction {motive : (s : JsString) → wellFormed s = true → Prop}
    (nil : motive [] rfl)
    (plain : ∀ c rest (hc : isHighSurrogate c = false) (hl : isLowSurrogate c = false)
      (hr : wellFormed rest = true), motive rest hr →
      motive (c :: rest) (by rwa [wellFormed_cons_plain hc hl]))
    (pair : ∀ c next rest (hc : isHighSurrogate c = true) (hl : isLowSurrogate next = true)
      (hr : wellFormed rest = true), motive rest hr →
      motive (c :: next :: rest) (by rwa [wellFormed_cons_pair hc hl]))
    (s : JsString) (h : wellFormed s = true) : motive s h := by
  induction hn : s.length using Nat.strongRecOn generalizing s with
  | ind n ih =>
    cases s with
    | nil => exact nil
    | cons c rest =>
      cases hc : isHighSurrogate c with
      | true =>
        obtain ⟨next, rest', rfl, hl, hr⟩ := exists_low_of_wellFormed hc h
        refine pair c next rest' hc hl hr (ih rest'.length ?_ rest' hr rfl)
        simp only [List.length_cons] at hn
        omega
      | false =>
        have hr := wellFormed_tail hc h
        refine plain c rest hc (not_low_of_wellFormed h) hr (ih rest.length ?_ rest hr rfl)
        simp only [List.length_cons] at hn
        omega

/-- Concatenation of well-formed strings. -/
theorem wellFormed_append {s t : JsString} (hs : wellFormed s = true)
    (ht : wellFormed t = true) : wellFormed (s ++ t) = true := by
  induction s, hs using wellFormed_induction with
  | nil => exact ht
  | plain c rest hc hl _ ih => rwa [List.cons_append, wellFormed_cons_plain hc hl]
  | pair c next rest hc hl _ ih =>
    rwa [List.cons_append, List.cons_append, wellFormed_cons_pair hc hl]

/-- Units below the surrogate range do not affect the well-formedness of what follows. -/
theorem wellFormed_append_of_lt {s : JsString} (h : ∀ c ∈ s, c.toNat < 0xD800)
    (t : JsString) : wellFormed (s ++ t) = wellFormed t := by
  induction s with
  | nil => rfl
  | cons c rest ih =>
    rw [List.cons_append, wellFormed_cons_of_lt (h c (by simp))]
    exact ih fun d hd ↦ h d (by simp [hd])

/-- A string without surrogates is well formed. -/
theorem wellFormed_of_forall {s : JsString} (h : ∀ c ∈ s, c.toNat < 0xD800) :
    wellFormed s = true := by
  have := wellFormed_append_of_lt h []
  rwa [List.append_nil] at this

/-- The comparison of `packages/core/src/canonicalize.mjs:3–10`: the first differing code
units decide, then the lengths. -/
def compareUtf16 : JsString → JsString → Int
  | a :: left, b :: right =>
    if a = b then compareUtf16 left right else (a.toNat : Int) - b.toNat
  | left, right => (left.length : Int) - right.length

theorem compareUtf16_self (s : JsString) : compareUtf16 s s = 0 := by
  induction s with
  | nil => rfl
  | cons a s ih => simp [compareUtf16, ih]

/-- Only equal strings compare as equal. -/
theorem eq_of_compareUtf16 {s t : JsString} (h : compareUtf16 s t = 0) : s = t := by
  induction s generalizing t with
  | nil =>
    cases t with
    | nil => rfl
    | cons b t =>
      simp only [compareUtf16, List.length_nil, List.length_cons] at h
      omega
  | cons a s ih =>
    cases t with
    | nil =>
      simp only [compareUtf16, List.length_nil, List.length_cons] at h
      omega
    | cons b t =>
      by_cases hab : a = b
      · rw [compareUtf16, if_pos hab] at h
        rw [hab, ih h]
      · rw [compareUtf16, if_neg hab] at h
        exact absurd (UInt16.toNat_inj.mp (by omega)) hab

/-- Swapping the operands negates the comparison. -/
theorem compareUtf16_swap (s t : JsString) : compareUtf16 t s = -compareUtf16 s t := by
  induction s generalizing t with
  | nil => cases t <;> simp [compareUtf16]
  | cons a s ih =>
    cases t with
    | nil => simp [compareUtf16]
    | cons b t =>
      by_cases hab : a = b
      · rw [compareUtf16, compareUtf16, if_pos hab, if_pos hab.symm, ih]
      · rw [compareUtf16, compareUtf16, if_neg hab, if_neg (Ne.symm hab)]
        omega

/-- The comparison is transitive. -/
theorem compareUtf16_trans {s t u : JsString} (hst : compareUtf16 s t ≤ 0)
    (htu : compareUtf16 t u ≤ 0) : compareUtf16 s u ≤ 0 := by
  induction s generalizing t u with
  | nil => cases u <;> simp [compareUtf16]
  | cons a s ih =>
    cases t with
    | nil =>
      simp only [compareUtf16, List.length_nil, List.length_cons] at hst
      omega
    | cons b t =>
      cases u with
      | nil =>
        simp only [compareUtf16, List.length_nil, List.length_cons] at htu
        omega
      | cons c u =>
        by_cases hab : a = b
        · subst hab
          by_cases hac : a = c
          · rw [compareUtf16, if_pos rfl] at hst
            rw [compareUtf16, if_pos hac] at htu ⊢
            exact ih hst htu
          · rw [compareUtf16, if_neg hac] at htu ⊢
            exact htu
        · rw [compareUtf16, if_neg hab] at hst
          have hne : a.toNat ≠ b.toNat := fun h ↦ hab (UInt16.toNat_inj.mp h)
          by_cases hbc : b = c
          · subst hbc
            rw [compareUtf16, if_neg hab]
            exact hst
          · rw [compareUtf16, if_neg hbc] at htu
            have hac : a ≠ c := fun h ↦ by
              rw [h] at hst hne
              omega
            rw [compareUtf16, if_neg hac]
            omega

/-- Any two strings are comparable. -/
theorem compareUtf16_total (s t : JsString) : compareUtf16 s t ≤ 0 ∨ compareUtf16 t s ≤ 0 := by
  rw [compareUtf16_swap s t]
  omega

/-! ### UTF-8 -/

/-- The scalar value of a surrogate pair. -/
def pairValue (c next : CodeUnit) : Nat :=
  0x10000 + (c.toNat - 0xD800) * 0x400 + (next.toNat - 0xDC00)

/-- The scalar values of a string; each unpaired surrogate becomes U+FFFD. -/
def toScalars : JsString → List Char
  | [] => []
  | [c] =>
    if isHighSurrogate c || isLowSurrogate c then [Char.ofNat 0xFFFD] else [Char.ofNat c.toNat]
  | c :: next :: rest =>
    if isHighSurrogate c && isLowSurrogate next then
      Char.ofNat (pairValue c next) :: toScalars rest
    else if isHighSurrogate c || isLowSurrogate c then
      Char.ofNat 0xFFFD :: toScalars (next :: rest)
    else Char.ofNat c.toNat :: toScalars (next :: rest)

/-- `Buffer.from(s, 'utf8')`. -/
def utf8 (s : JsString) : List UInt8 := (toScalars s).flatMap String.utf8EncodeChar

private theorem toNat_ofNat {n : Nat} (h : n.isValidChar) : (Char.ofNat n).toNat = n := by
  rw [Char.ofNat, dif_pos h]
  rfl

private theorem encode_plain {c : CodeUnit} (hh : isHighSurrogate c = false)
    (hl : isLowSurrogate c = false) : encodeUtf16 (Char.ofNat c.toNat) = [c] := by
  rw [Bool.eq_false_iff, ne_eq, isHighSurrogate_iff] at hh
  rw [Bool.eq_false_iff, ne_eq, isLowSurrogate_iff] at hl
  have hlt : c.toNat < 65536 := c.toNat_lt
  have hv : c.toNat.isValidChar := by
    simp only [Nat.isValidChar]
    omega
  rw [encodeUtf16, toNat_ofNat hv, if_pos hlt, UInt16.ofNat_toNat]

private theorem encode_pair {c next : CodeUnit} (hh : isHighSurrogate c = true)
    (hl : isLowSurrogate next = true) :
    encodeUtf16 (Char.ofNat (pairValue c next)) = [c, next] := by
  rw [isHighSurrogate_iff] at hh
  rw [isLowSurrogate_iff] at hl
  have hp : pairValue c next = 65536 + (c.toNat - 55296) * 1024 + (next.toNat - 56320) := rfl
  have hv : (pairValue c next).isValidChar := by
    refine Or.inr ⟨?_, ?_⟩ <;> omega
  have hge : ¬ pairValue c next < 65536 := by omega
  have hc : 55296 + (pairValue c next - 65536) / 1024 = c.toNat := by omega
  have hn : 56320 + (pairValue c next - 65536) % 1024 = next.toNat := by omega
  rw [encodeUtf16, toNat_ofNat hv, if_neg hge, hc, hn, UInt16.ofNat_toNat, UInt16.ofNat_toNat]

private theorem toScalars_plain {c : CodeUnit} (hh : isHighSurrogate c = false)
    (hl : isLowSurrogate c = false) (rest : JsString) :
    toScalars (c :: rest) = Char.ofNat c.toNat :: toScalars rest := by
  cases rest <;> simp [toScalars, hh, hl]

/-- Encoding the scalar values of a well-formed string recovers the string. -/
theorem flatMap_encodeUtf16_toScalars {s : JsString} (h : wellFormed s = true) :
    (toScalars s).flatMap encodeUtf16 = s := by
  induction s, h using wellFormed_induction with
  | nil => rfl
  | plain c rest hc hl _ ih =>
    rw [toScalars_plain hc hl, List.flatMap_cons, ih, encode_plain hc hl]
    rfl
  | pair c next rest hc hl _ ih =>
    simp only [toScalars, hc, hl, Bool.and_self, if_true, List.flatMap_cons, ih,
      encode_pair hc hl]
    rfl

private theorem flatMap_utf8EncodeChar_inj {l m : List Char}
    (h : l.flatMap String.utf8EncodeChar = m.flatMap String.utf8EncodeChar) : l = m := by
  have hb : l.utf8Encode = m.utf8Encode := by
    simp only [List.utf8Encode, h]
  have hd := congrArg ByteArray.utf8Decode? hb
  rw [List.utf8Decode?_utf8Encode, List.utf8Decode?_utf8Encode] at hd
  simpa using hd

/-- UTF-8 bytes determine a well-formed string. -/
theorem utf8_inj {s t : JsString} (hs : wellFormed s = true) (ht : wellFormed t = true)
    (h : utf8 s = utf8 t) : s = t := by
  have hc : toScalars s = toScalars t := flatMap_utf8EncodeChar_inj h
  rw [← flatMap_encodeUtf16_toScalars hs, ← flatMap_encodeUtf16_toScalars ht, hc]

/-- The digit `0` to `9` of a number below ten. -/
def digitUnit (n : Nat) : CodeUnit := UInt16.ofNat (0x30 + n)

/-- The lower-case hexadecimal digit of a number below sixteen. -/
def hexLower (n : Nat) : CodeUnit :=
  if n < 10 then UInt16.ofNat (0x30 + n) else UInt16.ofNat (0x61 + (n - 10))

/-- `String(n)` of a natural number. -/
def decimal (n : Nat) : JsString :=
  if n = 0 then [digitUnit 0] else (Nat.digits 10 n).reverse.map digitUnit

/-- `s.padStart(width, '0')`. -/
def padStart (width : Nat) (s : JsString) : JsString :=
  List.replicate (width - s.length) (digitUnit 0) ++ s

/-- `0` to `9`. -/
def isDigit (c : CodeUnit) : Bool := 0x30 ≤ c.toNat && c.toNat ≤ 0x39

theorem toNat_digitUnit {n : Nat} (h : n < 10) : (digitUnit n).toNat = 0x30 + n := by
  simp only [digitUnit, UInt16.toNat_ofNat']
  omega

theorem isDigit_digitUnit {n : Nat} (h : n < 10) : isDigit (digitUnit n) = true := by
  simp only [isDigit, toNat_digitUnit h, Bool.and_eq_true, decide_eq_true_eq]
  omega

/-- Every code unit of a decimal numeral is a digit. -/
theorem isDigit_of_mem_decimal {n : Nat} {c : CodeUnit} (h : c ∈ decimal n) :
    isDigit c = true := by
  unfold decimal at h
  split at h
  · rw [List.mem_singleton] at h
    rw [h]
    exact isDigit_digitUnit (by decide)
  · obtain ⟨d, hd, rfl⟩ := List.mem_map.mp h
    exact isDigit_digitUnit (Nat.digits_lt_base (by decide) (List.mem_reverse.mp hd))

/-- The number a digit string spells. -/
def digitsValue (ds : JsString) : Nat := ds.foldl (fun n c ↦ 10 * n + (c.toNat - 0x30)) 0

theorem digitsValue_append_singleton (ds : JsString) (c : CodeUnit) :
    digitsValue (ds ++ [c]) = 10 * digitsValue ds + (c.toNat - 0x30) := by
  simp [digitsValue]

private theorem digitsValue_reverse_map {ds : List Nat} (h : ∀ d ∈ ds, d < 10) :
    digitsValue (ds.reverse.map digitUnit) = Nat.ofDigits 10 ds := by
  induction ds with
  | nil => rfl
  | cons d ds ih =>
    rw [List.reverse_cons, List.map_append, List.map_singleton, digitsValue_append_singleton,
      ih fun e he ↦ h e (by simp [he]), toNat_digitUnit (h d (by simp)), Nat.ofDigits_cons]
    omega

/-- A decimal numeral spells its number. -/
theorem digitsValue_decimal (n : Nat) : digitsValue (decimal n) = n := by
  unfold decimal
  split
  · next h => rw [h]; decide
  · rw [digitsValue_reverse_map fun d hd ↦ Nat.digits_lt_base (by decide) hd,
      Nat.ofDigits_digits]

theorem digitsValue_zeros (k : Nat) (s : JsString) :
    digitsValue (List.replicate k (digitUnit 0) ++ s) = digitsValue s := by
  induction k with
  | zero => rfl
  | succ k ih => exact ih

theorem length_decimal_le {n width : Nat} (hw : 0 < width) (h : n < 10 ^ width) :
    (decimal n).length ≤ width := by
  unfold decimal
  split
  · exact hw
  · rw [List.length_map, List.length_reverse]
    exact (Nat.digits_length_le_iff (by decide) n).mpr h

/-- A number that fits is padded to the width, with digits that spell it. -/
theorem padStart_decimal {n w : Nat} (hw : 0 < w) (h : n < 10 ^ w) :
    (padStart w (decimal n)).length = w ∧
      (∀ c ∈ padStart w (decimal n), isDigit c = true) ∧
      digitsValue (padStart w (decimal n)) = n := by
  have hlen := length_decimal_le hw h
  refine ⟨?_, fun c hc ↦ ?_, ?_⟩
  · simp only [padStart, List.length_append, List.length_replicate]
    omega
  · rcases List.mem_append.mp hc with hz | hd
    · rw [List.eq_of_mem_replicate hz]
      decide
    · exact isDigit_of_mem_decimal hd
  · rw [padStart, digitsValue_zeros, digitsValue_decimal]

end TimeProofs.Base
