import TimeProofs.Json.StrictJson
import Mathlib.Data.List.TakeWhile

/-!
# The strict parser on whitespace, strings and numbers

Soundness and completeness of the lexical functions of the strict parser against the grammar.
Each sound outcome also keeps the well-formedness of the text: what was read is made of plain
units and surrogate pairs.
-/

namespace TimeProofs.Json

open TimeProofs.Base TimeProofs.Core

/-- The fault of a `StrictJsonError`. -/
def Fault.IsStrict : Fault → Prop
  | .strictJson .. => True
  | _ => False

/-- A parsing function fails only with a `StrictJsonError`. -/
def FailsStrictly {α : Type} (r : Parse α) : Prop := ∀ f, r = .error f → f.IsStrict

theorem failsStrictly_fail {α : Type} (code : ErrorCode) (message : String) (n : Nat) :
    FailsStrictly (fail code message n : Parse α) := by
  rintro f ⟨⟩
  trivial

theorem failsStrictly_ok {α : Type} (a : α) : FailsStrictly (.ok a : Parse α) := by
  rintro f ⟨⟩

/-- Sequencing fails strictly when both parts do. -/
theorem failsStrictly_bind {α β : Type} {r : Parse α} {k : α → Parse β} (hr : FailsStrictly r)
    (hk : ∀ a, r = .ok a → FailsStrictly (k a)) : FailsStrictly (r >>= k) := by
  cases h : r with
  | error e =>
    rintro f ⟨⟩
    exact hr e h
  | ok a => exact hk a h

/-- A sequenced success splits into its two parts. -/
theorem bind_eq_ok {α β : Type} {r : Parse α} {k : α → Parse β} {b : β}
    (h : (r >>= k) = .ok b) : ∃ a, r = .ok a ∧ k a = .ok b := by
  cases r with
  | error e => cases h
  | ok a => exact ⟨a, rfl, h⟩

theorem isWhitespace_lt {c : CodeUnit} (h : isWhitespace c = true) : c.toNat < 0xD800 := by
  simp only [isWhitespace, Bool.or_eq_true, decide_eq_true_eq] at h
  rcases h with ((rfl | rfl) | rfl) | rfl <;> decide

theorem ws_skipWhitespace (s : JsString) : Ws s (skipWhitespace s) := by
  induction s with
  | nil => exact .nil _
  | cons c s ih =>
    cases hc : isWhitespace c with
    | true =>
      rw [skipWhitespace, List.dropWhile_cons_of_pos hc]
      exact .cons hc ih
    | false =>
      rw [skipWhitespace, List.dropWhile_cons_of_neg (by simp [hc])]
      exact .nil _

theorem Ws.trans {s t u : JsString} (hst : Ws s t) (htu : Ws t u) : Ws s u := by
  induction hst with
  | nil => exact htu
  | cons hc _ ih => exact .cons hc (ih htu)

theorem Ws.wellFormed_eq {s t : JsString} (h : Ws s t) : wellFormed s = wellFormed t := by
  induction h with
  | nil => rfl
  | cons hc _ ih => rw [wellFormed_cons_of_lt (isWhitespace_lt hc), ih]

theorem Ws.length_le {s t : JsString} (h : Ws s t) : t.length ≤ s.length := by
  induction h with
  | nil => exact Nat.le_refl _
  | cons _ _ ih => exact Nat.le_succ_of_le ih

theorem Ws.skipWhitespace_eq {s t : JsString} (h : Ws s t) :
    skipWhitespace s = skipWhitespace t := by
  induction h with
  | nil => rfl
  | cons hc _ ih => rwa [skipWhitespace, List.dropWhile_cons_of_pos hc]

/-- Skipping stops at the first unit that is no whitespace. -/
theorem Ws.skipWhitespace_of_head {s t : JsString} {c : CodeUnit} (h : Ws s (c :: t))
    (hc : isWhitespace c = false) : skipWhitespace s = c :: t := by
  rw [h.skipWhitespace_eq, skipWhitespace, List.dropWhile_cons_of_neg (by simp [hc])]

theorem length_skipWhitespace_le (s : JsString) : (skipWhitespace s).length ≤ s.length :=
  (ws_skipWhitespace s).length_le

theorem assertValidUnicode_eq_ok (path s : JsString) :
    assertValidUnicode path s = .ok () ↔ wellFormed s = true := by
  induction s using wellFormed.induct with
  | case1 => simp [assertValidUnicode]
  | case2 c =>
    cases hh : isHighSurrogate c <;> cases hl : isLowSurrogate c <;>
      simp [assertValidUnicode, wellFormed, hh, hl]
  | case3 c next rest hh ih =>
    cases hl : isLowSurrogate next <;> simp [assertValidUnicode, wellFormed, hh, hl, ih]
  | case4 c next rest hh ih =>
    cases hl : isLowSurrogate c <;> simp [assertValidUnicode, wellFormed, hh, hl, ih]

theorem isHexDigit_lt {c : CodeUnit} (h : isHexDigit c = true) : c.toNat < 0xD800 := by
  simp only [isHexDigit, isDigit, Bool.or_eq_true, Bool.and_eq_true, decide_eq_true_eq] at h
  omega

theorem simpleEscape_lt {e c : CodeUnit} (h : simpleEscape e = some c) :
    e.toNat < 0xD800 ∧ c.toNat < 0xD800 := by
  unfold simpleEscape at h
  split_ifs at h <;> simp_all <;> subst h <;> decide

/-- No simple escape is the `u` of a Unicode escape. -/
theorem simpleEscape_letterU : simpleEscape letterU = none := by decide

theorem readHex_eq_ok {message : String} {s t : JsString} {c : CodeUnit} :
    readHex message s = .ok (c, t) ↔ ∃ a b d e, s = a :: b :: d :: e :: t ∧
      isHexDigit a = true ∧ isHexDigit b = true ∧ isHexDigit d = true ∧ isHexDigit e = true ∧
      c = hexUnit a b d e := by
  constructor
  · intro h
    unfold readHex at h
    split at h
    · next a b d e rest =>
      split at h
      · next hx =>
        simp only [Bool.and_eq_true] at hx
        obtain ⟨hc, rfl⟩ := Prod.mk.inj (Except.ok.inj h)
        exact ⟨a, b, d, e, rfl, hx.1.1.1, hx.1.1.2, hx.1.2, hx.2, hc.symm⟩
      · cases h
    · cases h
  · rintro ⟨a, b, d, e, rfl, ha, hb, hd, he, rfl⟩
    simp [readHex, ha, hb, hd, he]

theorem failsStrictly_readHex (message : String) (s : JsString) :
    FailsStrictly (readHex message s) := by
  unfold readHex
  split
  · split
    · exact failsStrictly_ok _
    · exact failsStrictly_fail _ _ _
  · exact failsStrictly_fail _ _ _

/-- What one step of the string loop reads: `decoded` is well formed, extends every decoding of
the rest, and leaves the well-formedness of the text unchanged. -/
structure ReadsChars (s decoded t : JsString) : Prop where
  chars : ∀ {d rest : JsString}, Chars t d rest → Chars s (decoded ++ d) rest
  decoded : wellFormed decoded = true
  text : wellFormed s = wellFormed t
  shorter : t.length < s.length

private theorem wellFormed_escape {a b c e : CodeUnit} (ha : isHexDigit a = true)
    (hb : isHexDigit b = true) (hc : isHexDigit c = true) (he : isHexDigit e = true)
    (t : JsString) :
    wellFormed (backslash :: letterU :: a :: b :: c :: e :: t) = wellFormed t := by
  rw [wellFormed_cons_of_lt (by decide), wellFormed_cons_of_lt (by decide),
    wellFormed_cons_of_lt (isHexDigit_lt ha), wellFormed_cons_of_lt (isHexDigit_lt hb),
    wellFormed_cons_of_lt (isHexDigit_lt hc), wellFormed_cons_of_lt (isHexDigit_lt he)]

private theorem wellFormed_singleton {c : CodeUnit} (hh : isHighSurrogate c = false)
    (hl : isLowSurrogate c = false) : wellFormed [c] = true := by
  simp [wellFormed, hh, hl]

theorem readUnicodeEscape_sound {s decoded t : JsString}
    (h : readUnicodeEscape s = .ok (decoded, t)) :
    ReadsChars (backslash :: letterU :: s) decoded t := by
  unfold readUnicodeEscape at h
  obtain ⟨⟨first, s₁⟩, h₁, hk⟩ := bind_eq_ok h
  clear h
  obtain ⟨a, b, c, e, rfl, ha, hb, hc, he, hf⟩ := readHex_eq_ok.mp h₁
  have h := hk
  dsimp only at h
  cases hh : isHighSurrogate first with
  | false =>
    simp only [hh, Bool.false_eq_true, if_false] at h
    cases hl : isLowSurrogate first with
    | true => simp [hl, fail] at h
    | false =>
      simp only [hl, Bool.false_eq_true, if_false, Except.ok.injEq, Prod.mk.injEq] at h
      obtain ⟨rfl, rfl⟩ := h
      exact
        { chars := fun ht ↦ hf ▸ .unicode ha hb hc he ht
          decoded := wellFormed_singleton hh hl
          text := wellFormed_escape ha hb hc he _
          shorter := by simp only [List.length_cons]; omega }
  | true =>
    simp only [hh, if_true] at h
    split at h
    · cases h
    · next hu =>
      simp only [ne_eq, Decidable.not_not] at hu
      obtain ⟨⟨second, s₂⟩, h₂, hk₂⟩ := bind_eq_ok h
      obtain ⟨a', b', c', e', hd, ha', hb', hc', he', hf'⟩ := readHex_eq_ok.mp h₂
      clear h
      have h := hk₂
      dsimp only at h
      cases hl : isLowSurrogate second with
      | false => simp [hl, fail] at h
      | true =>
        simp only [hl, Bool.not_true, Bool.false_eq_true, if_false, Except.ok.injEq,
          Prod.mk.injEq] at h
        obtain ⟨rfl, rfl⟩ := h
        have hs : s₁ = backslash :: letterU :: a' :: b' :: c' :: e' :: s₂ := by
          rw [← List.take_append_drop 2 s₁, hu, hd]
          rfl
        subst hs
        exact
          { chars := fun ht ↦ hf ▸ .unicode ha hb hc he (hf' ▸ .unicode ha' hb' hc' he' ht)
            decoded := by rw [wellFormed_cons_pair hh hl]; rfl
            text := by
              rw [wellFormed_escape ha hb hc he, wellFormed_escape ha' hb' hc' he']
            shorter := by simp only [List.length_cons]; omega }

theorem readEscape_sound {s decoded t : JsString} (h : readEscape s = .ok (decoded, t)) :
    ReadsChars (backslash :: s) decoded t := by
  unfold readEscape at h
  split at h
  · cases h
  · next escape s =>
    split at h
    · next c hc =>
      obtain ⟨rfl, rfl⟩ := Prod.mk.inj (Except.ok.inj h)
      have hp := plain_of_lt (simpleEscape_lt hc).2
      exact
        { chars := fun ht ↦ .simple hc ht
          decoded := wellFormed_singleton hp.1 hp.2
          text := by
            rw [wellFormed_cons_of_lt (by decide), wellFormed_cons_of_lt (simpleEscape_lt hc).1]
          shorter := by simp only [List.length_cons]; omega }
    · split at h
      · cases h
      · next hu =>
        simp only [ne_eq, Decidable.not_not] at hu
        subst hu
        exact readUnicodeEscape_sound h

theorem readUnescaped_sound {c : CodeUnit} {s decoded t : JsString} (hq : c ≠ quotationMark)
    (hb : c ≠ backslash) (h : readUnescaped c s = .ok (decoded, t)) :
    ReadsChars (c :: s) decoded t := by
  unfold readUnescaped at h
  split at h
  · cases h
  · next hc =>
    cases hh : isHighSurrogate c with
    | true =>
      simp only [hh, if_true] at h
      split at h
      · next next rest =>
        split at h
        · next hl =>
          obtain ⟨rfl, rfl⟩ := Prod.mk.inj (Except.ok.inj h)
          have hn := (isLowSurrogate_iff next).mp hl
          have hnq : next ≠ quotationMark := by rintro rfl; exact absurd hn (by decide)
          have hnb : next ≠ backslash := by rintro rfl; exact absurd hn (by decide)
          exact
            { chars := fun ht ↦
                .unescaped (by omega) hq hb (.unescaped (by omega) hnq hnb ht)
              decoded := by rw [wellFormed_cons_pair hh hl]; rfl
              text := wellFormed_cons_pair hh hl _
              shorter := by simp only [List.length_cons]; omega }
        · cases h
      · cases h
    | false =>
      simp only [hh, Bool.false_eq_true, if_false] at h
      cases hl : isLowSurrogate c with
      | true => simp [hl, fail] at h
      | false =>
        simp only [hl, Bool.false_eq_true, if_false, Except.ok.injEq, Prod.mk.injEq] at h
        obtain ⟨rfl, rfl⟩ := h
        exact
          { chars := fun ht ↦ .unescaped (by omega) hq hb ht
            decoded := wellFormed_singleton hh hl
            text := wellFormed_cons_plain hh hl _
            shorter := by simp only [List.length_cons]; omega }

theorem failsStrictly_readUnicodeEscape (s : JsString) :
    FailsStrictly (readUnicodeEscape s) := by
  unfold readUnicodeEscape
  refine failsStrictly_bind (failsStrictly_readHex _ _) fun p _ ↦ ?_
  dsimp only
  split
  · split
    · exact failsStrictly_fail _ _ _
    · refine failsStrictly_bind (failsStrictly_readHex _ _) fun q _ ↦ ?_
      split
      · exact failsStrictly_fail _ _ _
      · exact failsStrictly_ok _
  · split
    · exact failsStrictly_fail _ _ _
    · exact failsStrictly_ok _

theorem failsStrictly_readEscape (s : JsString) : FailsStrictly (readEscape s) := by
  unfold readEscape
  split
  · exact failsStrictly_fail _ _ _
  · split
    · exact failsStrictly_ok _
    · split
      · rintro f ⟨⟩
        trivial
      · exact failsStrictly_readUnicodeEscape _

theorem failsStrictly_readUnescaped (c : CodeUnit) (s : JsString) :
    FailsStrictly (readUnescaped c s) := by
  unfold readUnescaped
  split
  · exact failsStrictly_fail _ _ _
  · split
    · split
      · split
        · exact failsStrictly_ok _
        · exact failsStrictly_fail _ _ _
      · exact failsStrictly_fail _ _ _
    · split
      · exact failsStrictly_fail _ _ _
      · exact failsStrictly_ok _

/-! ### Strings -/

/-- A string that the loop returns extends the output by a decoding of the text. -/
theorem stringLoop_sound {fuel : Nat} {output s d t : JsString}
    (h : stringLoop fuel output s = .ok (d, t)) :
    (∃ d', d = output ++ d' ∧ Chars s d' t) ∧ wellFormed d = true ∧
      wellFormed s = wellFormed t ∧ t.length < s.length := by
  induction fuel generalizing output s with
  | zero => cases h
  | succ fuel ih =>
    cases s with
    | nil => cases h
    | cons c s =>
      rw [stringLoop] at h
      split at h
      · next hq =>
        split at h
        · next hv =>
          obtain ⟨rfl, rfl⟩ := Prod.mk.inj (Except.ok.inj h)
          refine ⟨⟨[], by simp, hq ▸ .close _⟩, (assertValidUnicode_eq_ok _ _).mp hv, ?_, by simp⟩
          rw [hq, wellFormed_cons_of_lt (by decide)]
        · cases h
      · next hq =>
        have step {decoded s' : JsString} (hr : ReadsChars (c :: s) decoded s')
            (hl : stringLoop fuel (output ++ decoded) s' = .ok (d, t)) :
            (∃ d', d = output ++ d' ∧ Chars (c :: s) d' t) ∧ wellFormed d = true ∧
              wellFormed (c :: s) = wellFormed t ∧ t.length < (c :: s).length := by
          obtain ⟨⟨d', hd, hc⟩, hw, ht, hlt⟩ := ih hl
          refine ⟨⟨decoded ++ d', ?_, hr.chars hc⟩, hw, hr.text.trans ht, hlt.trans hr.shorter⟩
          rw [hd, List.append_assoc]
        split at h
        · next hb =>
          obtain ⟨⟨decoded, s'⟩, he, hl⟩ := bind_eq_ok h
          exact step (hb ▸ readEscape_sound he) hl
        · next hb =>
          obtain ⟨⟨decoded, s'⟩, hu, hl⟩ := bind_eq_ok h
          exact step (readUnescaped_sound hq hb hu) hl

/-- With fuel for the text and a well-formed output the loop never reports a `TypeError`. -/
theorem failsStrictly_stringLoop {fuel : Nat} {output s : JsString} (hf : s.length < fuel)
    (ho : wellFormed output = true) : FailsStrictly (stringLoop fuel output s) := by
  induction fuel generalizing output s with
  | zero => omega
  | succ fuel ih =>
    cases s with
    | nil => exact failsStrictly_fail _ _ _
    | cons c s =>
      have step {decoded s' : JsString} (hr : ReadsChars (c :: s) decoded s') :
          FailsStrictly (stringLoop fuel (output ++ decoded) s') := by
        refine ih ?_ (wellFormed_append ho hr.decoded)
        have := hr.shorter
        omega
      rw [stringLoop]
      split
      · rw [(assertValidUnicode_eq_ok _ _).mpr ho]
        exact failsStrictly_ok _
      · next hq =>
        split
        · next hb =>
          refine failsStrictly_bind (failsStrictly_readEscape s) fun p hp ↦ ?_
          exact step (hb ▸ readEscape_sound hp)
        · next hb =>
          refine failsStrictly_bind (failsStrictly_readUnescaped c s) fun p hp ↦ ?_
          exact step (readUnescaped_sound hq hb hp)

private theorem readUnescaped_pair {c next : CodeUnit} (hh : isHighSurrogate c = true)
    (hl : isLowSurrogate next = true) (s : JsString) :
    readUnescaped c (next :: s) = .ok ([c, next], s) := by
  have hc : ¬ c.toNat < 0x20 := by
    have := (isHighSurrogate_iff c).mp hh
    omega
  simp [readUnescaped, hc, hh, hl]

private theorem readUnescaped_plain {c : CodeUnit} (hc : 0x20 ≤ c.toNat)
    (hh : isHighSurrogate c = false) (hl : isLowSurrogate c = false) (s : JsString) :
    readUnescaped c s = .ok ([c], s) := by
  have hc : ¬ c.toNat < 0x20 := by omega
  simp [readUnescaped, hc, hh, hl]

private theorem readEscape_unicode (s : JsString) :
    readEscape (letterU :: s) = readUnicodeEscape s := by
  simp [readEscape, simpleEscape_letterU]

private theorem readUnicodeEscape_plain {a b c e : CodeUnit} {s : JsString}
    (hx : readHex "Expected four hexadecimal digits" (a :: b :: c :: e :: s) =
      .ok (hexUnit a b c e, s))
    (hh : isHighSurrogate (hexUnit a b c e) = false)
    (hl : isLowSurrogate (hexUnit a b c e) = false) :
    readUnicodeEscape (a :: b :: c :: e :: s) = .ok ([hexUnit a b c e], s) := by
  rw [readUnicodeEscape, hx]
  simp only [bind, Except.bind, hh, hl, Bool.false_eq_true, if_false]

private theorem readUnicodeEscape_pair {a b c e a' b' c' e' : CodeUnit} {s : JsString}
    (hx : ∀ r, readHex "Expected four hexadecimal digits" (a :: b :: c :: e :: r) =
      .ok (hexUnit a b c e, r))
    (hx' : readHex "Expected four hexadecimal digits for low surrogate"
      (a' :: b' :: c' :: e' :: s) = .ok (hexUnit a' b' c' e', s))
    (hh : isHighSurrogate (hexUnit a b c e) = true)
    (hl : isLowSurrogate (hexUnit a' b' c' e') = true) :
    readUnicodeEscape (a :: b :: c :: e :: backslash :: letterU :: a' :: b' :: c' :: e' :: s) =
      .ok ([hexUnit a b c e, hexUnit a' b' c' e'], s) := by
  rw [readUnicodeEscape, hx]
  simp only [bind, Except.bind, hh, if_true, List.take_succ_cons, List.take_zero, ne_eq,
    not_true_eq_false, if_false, List.drop_succ_cons, List.drop_zero, hx', hl, Bool.not_true,
    Bool.false_eq_true]

private theorem readHex_complete {a b c e : CodeUnit} (ha : isHexDigit a = true)
    (hb : isHexDigit b = true) (hc : isHexDigit c = true) (he : isHexDigit e = true)
    (message : String) (s : JsString) :
    readHex message (a :: b :: c :: e :: s) = .ok (hexUnit a b c e, s) :=
  readHex_eq_ok.mpr ⟨a, b, c, e, rfl, ha, hb, hc, he, rfl⟩

private theorem stringLoop_escape (fuel : Nat) (output s : JsString) :
    stringLoop (fuel + 1) output (backslash :: s) = (do
      let (decoded, s) ← readEscape s
      stringLoop fuel (output ++ decoded) s) := by
  rw [stringLoop, if_neg (by decide), if_pos rfl]

private theorem stringLoop_unescaped {c : CodeUnit} (hq : c ≠ quotationMark)
    (hb : c ≠ backslash) (fuel : Nat) (output s : JsString) :
    stringLoop (fuel + 1) output (c :: s) = (do
      let (decoded, s) ← readUnescaped c s
      stringLoop fuel (output ++ decoded) s) := by
  rw [stringLoop, if_neg hq, if_neg hb]

/-- In a well-formed text an escaped low surrogate is spelt by a Unicode escape. -/
private theorem Chars.unicode_of_low {s d t : JsString} {next : CodeUnit}
    (h : Chars s (next :: d) t) (hs : wellFormed s = true)
    (hl : isLowSurrogate next = true) :
    ∃ a b c e s', s = backslash :: letterU :: a :: b :: c :: e :: s' ∧
      next = hexUnit a b c e ∧ isHexDigit a = true ∧ isHexDigit b = true ∧
      isHexDigit c = true ∧ isHexDigit e = true ∧ Chars s' d t := by
  cases h with
  | unescaped => exact absurd hl (by simp [not_low_of_wellFormed hs])
  | simple he =>
    have := (plain_of_lt (simpleEscape_lt he).2).2
    exact absurd hl (by simp [this])
  | unicode ha hb hc he ht => exact ⟨_, _, _, _, _, rfl, rfl, ha, hb, hc, he, ht⟩

/-- A legal string body with well-formed text and decoding is read to its end. -/
theorem stringLoop_complete {s d t : JsString} (h : Chars s d t) (hs : wellFormed s = true)
    (hd : wellFormed d = true) {fuel : Nat} (hf : s.length < fuel) {output : JsString}
    (ho : wellFormed output = true) : stringLoop fuel output s = .ok (output ++ d, t) := by
  induction fuel generalizing s d output with
  | zero => omega
  | succ fuel ih =>
    cases h with
    | close =>
      rw [stringLoop, if_pos rfl, (assertValidUnicode_eq_ok _ _).mpr ho, List.append_nil]
    | @unescaped c s d _ hc hq hb ht =>
      rw [stringLoop_unescaped hq hb]
      cases hh : isHighSurrogate c with
      | false =>
        have hl := not_low_of_wellFormed hs
        rw [readUnescaped_plain hc hh hl]
        rw [wellFormed_cons_plain hh hl] at hs hd
        simp only [List.length_cons] at hf
        have := ih ht hs hd (by omega) (wellFormed_append ho (wellFormed_singleton hh hl))
        simpa [bind, Except.bind] using this
      | true =>
        obtain ⟨next, s, rfl, hl, hs'⟩ := exists_low_of_wellFormed hh hs
        obtain ⟨next', d, rfl, -, hd'⟩ := exists_low_of_wellFormed hh hd
        have hn := (isLowSurrogate_iff next).mp hl
        have hnb : next ≠ backslash := by rintro rfl; exact absurd hn (by decide)
        rw [readUnescaped_pair hh hl]
        cases ht with
        | unescaped _ _ _ ht =>
          simp only [List.length_cons] at hf
          have hp : wellFormed [c, next] = true := by rw [wellFormed_cons_pair hh hl]; rfl
          have := ih ht hs' hd' (by omega) (wellFormed_append ho hp)
          simpa [bind, Except.bind] using this
        | simple => exact absurd rfl hnb
        | unicode => exact absurd rfl hnb
    | @simple e c s d _ he ht =>
      rw [stringLoop_escape]
      have hr : readEscape (e :: s) = .ok ([c], s) := by simp [readEscape, he]
      have hp := plain_of_lt (simpleEscape_lt he).2
      rw [wellFormed_cons_of_lt (by decide), wellFormed_cons_of_lt (simpleEscape_lt he).1] at hs
      rw [wellFormed_cons_plain hp.1 hp.2] at hd
      simp only [List.length_cons] at hf
      have := ih ht hs hd (by omega) (wellFormed_append ho (wellFormed_singleton hp.1 hp.2))
      simpa [hr, bind, Except.bind] using this
    | @unicode a b c e s d _ ha hb hc he ht =>
      rw [stringLoop_escape, readEscape_unicode]
      rw [wellFormed_escape ha hb hc he] at hs
      simp only [List.length_cons] at hf
      have hx := readHex_complete ha hb hc he "Expected four hexadecimal digits"
      cases hh : isHighSurrogate (hexUnit a b c e) with
      | false =>
        have hl := not_low_of_wellFormed hd
        rw [readUnicodeEscape_plain (hx s) hh hl]
        rw [wellFormed_cons_plain hh hl] at hd
        have := ih ht hs hd (by omega) (wellFormed_append ho (wellFormed_singleton hh hl))
        simpa [bind, Except.bind] using this
      | true =>
        obtain ⟨next, d, rfl, hl, hd'⟩ := exists_low_of_wellFormed hh hd
        obtain ⟨a', b', c', e', s, rfl, rfl, ha', hb', hc', he', ht⟩ := ht.unicode_of_low hs hl
        have hx' := readHex_complete ha' hb' hc' he'
          "Expected four hexadecimal digits for low surrogate" s
        rw [readUnicodeEscape_pair hx hx' hh hl]
        rw [wellFormed_escape ha' hb' hc' he'] at hs
        simp only [List.length_cons] at hf
        have hp : wellFormed [hexUnit a b c e, hexUnit a' b' c' e'] = true := by
          rw [wellFormed_cons_pair hh hl]
          rfl
        have := ih ht hs hd' (by omega) (wellFormed_append ho hp)
        simpa [bind, Except.bind] using this

/-- What `parseString` returns is the decoding of a well-formed string literal. -/
theorem parseString_sound {s d t : JsString} (h : parseString s = .ok (d, t)) :
    ∃ s', s = quotationMark :: s' ∧ Chars s' d t ∧ wellFormed d = true ∧
      wellFormed s = wellFormed t ∧ t.length < s.length := by
  cases s with
  | nil => cases h
  | cons c s =>
    rw [parseString] at h
    split at h
    · next hq =>
      subst hq
      obtain ⟨⟨d', hd, hc⟩, hw, ht, hlt⟩ := stringLoop_sound h
      rw [List.nil_append] at hd
      refine ⟨s, rfl, hd ▸ hc, hw, ?_, Nat.lt_succ_of_lt hlt⟩
      rw [wellFormed_cons_of_lt (by decide), ht]
    · cases h

theorem failsStrictly_parseString (s : JsString) : FailsStrictly (parseString s) := by
  cases s with
  | nil => exact failsStrictly_fail _ _ _
  | cons c s =>
    rw [parseString]
    split
    · exact failsStrictly_stringLoop (Nat.lt_succ_self _) rfl
    · exact failsStrictly_fail _ _ _

theorem parseString_complete {s d t : JsString} (h : Chars s d t) (hs : wellFormed s = true)
    (hd : wellFormed d = true) : parseString (quotationMark :: s) = .ok (d, t) := by
  rw [parseString, if_pos rfl]
  exact stringLoop_complete h hs hd (Nat.lt_succ_self _) rfl

/-! ### Numbers -/

/-- A text that cannot continue a number token. -/
def EndsToken (t : JsString) : Prop :=
  ∀ c ∈ t.head?, isDigit c = false ∧ c ≠ fullStop ∧ isExponentMark c = false

theorem startsWithDigit_cons (c : CodeUnit) (s : JsString) :
    startsWithDigit (c :: s) = isDigit c := rfl

private theorem exists_digits (s : JsString) (h : startsWithDigit s = true) :
    ∃ ds, s = ds ++ s.dropWhile isDigit ∧ IsDigits ds := by
  refine ⟨s.takeWhile isDigit, List.takeWhile_append_dropWhile.symm, ?_, ?_⟩
  · cases s with
    | nil => cases h
    | cons c s =>
      rw [startsWithDigit_cons] at h
      simp [h]
  · exact fun c hc ↦ List.mem_takeWhile_imp hc

private theorem dropWhile_digits {ds t : JsString} (hd : ∀ c ∈ ds, isDigit c = true)
    (ht : startsWithDigit t = false) : (ds ++ t).dropWhile isDigit = t := by
  rw [List.dropWhile_append_of_pos hd]
  cases t with
  | nil => rfl
  | cons c t =>
    rw [startsWithDigit_cons] at ht
    rw [List.dropWhile_cons_of_neg (by simp [ht])]

private theorem startsWithDigit_append {ds : JsString} (h : IsDigits ds) (t : JsString) :
    startsWithDigit (ds ++ t) = true := by
  cases ds with
  | nil => exact absurd rfl h.1
  | cons c ds => exact h.2 c (by simp)

theorem scanInt_sound {s t : JsString} (h : scanInt s = .ok t) :
    ∃ int, s = int ++ t ∧ IsInt int := by
  unfold scanInt at h
  split at h
  · next h0 =>
    split at h
    · cases h
    · cases s with
      | nil => cases h0
      | cons c s =>
        obtain rfl := Option.some.inj h0
        obtain rfl := Except.ok.inj h
        exact ⟨[zeroDigit], rfl, .zero⟩
  · next h0 =>
    split at h
    · next hd =>
      obtain rfl := Except.ok.inj h
      obtain ⟨ds, hs, hne, hall⟩ := exists_digits s hd
      cases ds with
      | nil => exact absurd rfl hne
      | cons d ds =>
        refine ⟨d :: ds, hs, .digits d ds (hall d (by simp)) ?_ fun c hc ↦ hall c (by simp [hc])⟩
        rintro rfl
        exact h0 (by rw [hs]; rfl)
    · cases h

theorem scanInt_complete {int t : JsString} (hi : IsInt int)
    (ht : startsWithDigit t = false) : scanInt (int ++ t) = .ok t := by
  cases hi with
  | zero => simp [scanInt, ht]
  | digits d ds hd h0 hds =>
    have hdrop : ((d :: ds) ++ t).dropWhile isDigit = t := by
      refine dropWhile_digits (fun c hc ↦ ?_) ht
      rcases List.mem_cons.mp hc with rfl | hc
      · exact hd
      · exact hds c hc
    have hs : startsWithDigit (d :: (ds ++ t)) = true := hd
    rw [List.cons_append] at hdrop ⊢
    simp [scanInt, h0, hs, hdrop]

theorem scanFrac_sound {s t : JsString} (h : scanFrac s = .ok t) :
    ∃ frac, s = frac ++ t ∧ IsFrac frac := by
  unfold scanFrac at h
  split at h
  · next h0 =>
    split at h
    · next hd =>
      obtain rfl := Except.ok.inj h
      cases s with
      | nil => cases h0
      | cons c s =>
        obtain rfl := Option.some.inj h0
        obtain ⟨ds, hs, hds⟩ := exists_digits s hd
        exact ⟨fullStop :: ds, congrArg (fullStop :: ·) hs, .digits ds hds⟩
    · cases h
  · obtain rfl := Except.ok.inj h
    exact ⟨[], rfl, .absent⟩

theorem scanFrac_complete {frac t : JsString} (hf : IsFrac frac)
    (ht : startsWithDigit t = false) (hp : t.head? ≠ some fullStop) :
    scanFrac (frac ++ t) = .ok t := by
  cases hf with
  | absent => simp [scanFrac, hp]
  | digits ds hds =>
    simp [scanFrac, startsWithDigit_append hds, dropWhile_digits hds.2 ht]

/-- The exponent digits after the mark and an optional sign. -/
private theorem scanExp_cons {e : CodeUnit} (he : isExponentMark e = true) (s digits : JsString)
    (hd : digits = if s.head?.any isSign then s.tail else s) :
    scanExp (e :: s) = if startsWithDigit digits then .ok (digits.dropWhile isDigit)
      else fail .invalidNumber "Expected exponent digit" digits.length := by
  subst hd
  simp only [scanExp, List.head?_cons, Option.any_some, he, if_true, List.tail_cons]
  rfl

theorem scanExp_sound {s t : JsString} (h : scanExp s = .ok t) :
    ∃ exp, s = exp ++ t ∧ IsExp exp := by
  by_cases he : s.head?.any isExponentMark = true
  · cases s with
    | nil => cases he
    | cons e s =>
      replace he : isExponentMark e = true := he
      obtain ⟨digits, hdigits⟩ : ∃ d, d = if s.head?.any isSign then s.tail else s := ⟨_, rfl⟩
      rw [scanExp_cons he s digits hdigits] at h
      split at h
      · next hd =>
        obtain rfl := Except.ok.inj h
        obtain ⟨ds, hs, hds⟩ := exists_digits digits hd
        by_cases hsign : s.head?.any isSign = true
        · rw [if_pos hsign] at hdigits
          cases s with
          | nil => cases hsign
          | cons sign s =>
            obtain rfl := hdigits
            exact ⟨e :: sign :: ds, congrArg (e :: sign :: ·) hs, .signed e sign ds he hsign hds⟩
        · rw [if_neg hsign] at hdigits
          subst hdigits
          exact ⟨e :: ds, congrArg (e :: ·) hs, .unsigned e ds he hds⟩
      · cases h
  · rw [scanExp, if_neg he] at h
    obtain rfl := Except.ok.inj h
    exact ⟨[], rfl, .absent⟩

private theorem not_isSign_of_isDigit {c : CodeUnit} (h : isDigit c = true) :
    isSign c = false := by
  cases hs : isSign c with
  | false => rfl
  | true =>
    simp only [isSign, Bool.or_eq_true, decide_eq_true_eq] at hs
    rcases hs with rfl | rfl <;> exact absurd h (by decide)

theorem scanExp_complete {exp t : JsString} (he : IsExp exp) (ht : EndsToken t) :
    scanExp (exp ++ t) = .ok t := by
  have htd : startsWithDigit t = false := by
    cases t with
    | nil => rfl
    | cons c t => exact (ht c rfl).1
  cases he with
  | absent =>
    cases t with
    | nil => rfl
    | cons c t => simp [scanExp, (ht c rfl).2.2]
  | unsigned e ds he hds =>
    have hs : (ds ++ t).head?.any isSign = false := by
      cases ds with
      | nil => exact absurd rfl hds.1
      | cons d ds => exact not_isSign_of_isDigit (hds.2 d (by simp))
    rw [List.cons_append, scanExp_cons he (ds ++ t) (ds ++ t) (by simp only [hs]; rfl),
      if_pos (startsWithDigit_append hds t), dropWhile_digits hds.2 htd]
  | signed e sign ds he hsign hds =>
    rw [List.cons_append, List.cons_append,
      scanExp_cons he (sign :: (ds ++ t)) (ds ++ t) (by simp [hsign]),
      if_pos (startsWithDigit_append hds t), dropWhile_digits hds.2 htd]

private theorem parseNumber_of_scan {start s₁ s₂ s₃ raw t : JsString}
    (h₁ : scanInt (if start.head? = some minusSign then start.tail else start) = .ok s₁)
    (h₂ : scanFrac s₁ = .ok s₂) (h₃ : scanExp s₂ = .ok s₃) (hs : start = raw ++ t)
    (ht : s₃ = t) :
    parseNumber start =
      if !(numberOf raw).isFinite then
        fail .nonFiniteNumber "Number is outside the supported finite range" start.length
      else .ok (.num (numberOf raw), t) := by
  have hraw : start.take (start.length - t.length) = raw := by
    rw [hs, List.length_append, Nat.add_sub_cancel, List.take_left]
  subst ht
  rw [parseNumber]
  simp only [h₁, h₂, h₃, bind, Except.bind, hraw]

/-- A number that `parseNumber` returns is denoted by the token it consumed. -/
theorem parseNumber_sound {s t : JsString} {v : Json} (h : parseNumber s = .ok (v, t)) :
    ∃ raw, s = raw ++ t ∧ IsNumber raw ∧ v = .num (numberOf raw) ∧
      (numberOf raw).isFinite = true := by
  have hsplit : ∃ raw, s = raw ++ t ∧ IsNumber raw ∧ (∃ s₁ s₂,
      scanInt (if s.head? = some minusSign then s.tail else s) = .ok s₁ ∧
      scanFrac s₁ = .ok s₂ ∧ scanExp s₂ = .ok t) := by
    obtain ⟨s₁, h₁, hk₁⟩ := bind_eq_ok h
    obtain ⟨s₂, h₂, hk₂⟩ := bind_eq_ok hk₁
    obtain ⟨s₃, h₃, hk₃⟩ := bind_eq_ok hk₂
    have ht : s₃ = t := by
      dsimp only at hk₃
      split at hk₃
      · cases hk₃
      · exact (Prod.mk.inj (Except.ok.inj hk₃)).2
    subst ht
    obtain ⟨int, hi, hint⟩ := scanInt_sound h₁
    obtain ⟨frac, rfl, hfrac⟩ := scanFrac_sound h₂
    obtain ⟨exp, rfl, hexp⟩ := scanExp_sound h₃
    split at hi
    · next hm =>
      cases s with
      | nil => cases hm
      | cons c s =>
        obtain rfl := Option.some.inj hm
        refine ⟨minusSign :: (int ++ frac ++ exp), ?_, .negative int frac exp hint hfrac hexp,
          _, _, h₁, h₂, h₃⟩
        rw [List.tail_cons] at hi
        rw [hi]
        simp
    · refine ⟨int ++ frac ++ exp, ?_, .positive int frac exp hint hfrac hexp, _, _, h₁, h₂, h₃⟩
      rw [hi]
      simp
  obtain ⟨raw, hs, hn, s₁, s₂, h₁, h₂, h₃⟩ := hsplit
  rw [parseNumber_of_scan h₁ h₂ h₃ hs rfl] at h
  refine ⟨raw, hs, hn, ?_⟩
  split at h
  · cases h
  · next hf =>
    obtain ⟨hv, -⟩ := Prod.mk.inj (Except.ok.inj h)
    exact ⟨hv.symm, by simpa using hf⟩

theorem endsToken_facts {t : JsString} (ht : EndsToken t) {frac exp : JsString}
    (hf : IsFrac frac) (he : IsExp exp) :
    startsWithDigit (frac ++ (exp ++ t)) = false ∧ startsWithDigit (exp ++ t) = false ∧
      (exp ++ t).head? ≠ some fullStop := by
  have mark {e : CodeUnit} (hm : isExponentMark e = true) :
      isDigit e = false ∧ e ≠ fullStop := by
    simp only [isExponentMark, Bool.or_eq_true, decide_eq_true_eq] at hm
    rcases hm with rfl | rfl <;> decide
  have hexp : startsWithDigit (exp ++ t) = false ∧ (exp ++ t).head? ≠ some fullStop := by
    cases he with
    | absent =>
      cases t with
      | nil => exact ⟨rfl, nofun⟩
      | cons c t => exact ⟨(ht c rfl).1, fun h ↦ (ht c rfl).2.1 (Option.some.inj h)⟩
    | unsigned e ds hm => exact ⟨(mark hm).1, fun h ↦ (mark hm).2 (Option.some.inj h)⟩
    | signed e sign ds hm => exact ⟨(mark hm).1, fun h ↦ (mark hm).2 (Option.some.inj h)⟩
  refine ⟨?_, hexp⟩
  cases hf with
  | absent => exact hexp.1
  | digits ds => exact (by decide : isDigit fullStop = false)

/-- A number token that ends where the text says is read as the number it denotes. -/
theorem parseNumber_complete {raw t : JsString} (hn : IsNumber raw)
    (hf : (numberOf raw).isFinite = true) (ht : EndsToken t) :
    parseNumber (raw ++ t) = .ok (.num (numberOf raw), t) := by
  have hscan : ∃ s₁ s₂, scanInt (if (raw ++ t).head? = some minusSign then (raw ++ t).tail
      else raw ++ t) = .ok s₁ ∧ scanFrac s₁ = .ok s₂ ∧ scanExp s₂ = .ok t := by
    have run {int frac exp : JsString} (hi : IsInt int) (hfr : IsFrac frac) (he : IsExp exp) :
        scanInt (int ++ frac ++ exp ++ t) = .ok (frac ++ (exp ++ t)) ∧
          scanFrac (frac ++ (exp ++ t)) = .ok (exp ++ t) ∧ scanExp (exp ++ t) = .ok t := by
      obtain ⟨hfd, hed, hep⟩ := endsToken_facts ht hfr he
      refine ⟨?_, scanFrac_complete hfr hed hep, scanExp_complete he ht⟩
      rw [List.append_assoc, List.append_assoc]
      exact scanInt_complete hi hfd
    cases hn with
    | positive int frac exp hi hfr he =>
      obtain ⟨h₁, h₂, h₃⟩ := run hi hfr he
      have hm : (int ++ frac ++ exp ++ t).head? ≠ some minusSign := by
        cases hi with
        | zero => exact (by decide : ¬some zeroDigit = some minusSign)
        | digits d ds hd =>
          rintro h
          obtain rfl := Option.some.inj h
          exact absurd hd (by decide)
      exact ⟨_, _, by rwa [if_neg hm], h₂, h₃⟩
    | negative int frac exp hi hfr he =>
      obtain ⟨h₁, h₂, h₃⟩ := run hi hfr he
      refine ⟨_, _, ?_, h₂, h₃⟩
      simp only [List.cons_append, List.head?_cons, if_true, List.tail_cons]
      exact h₁
  obtain ⟨s₁, s₂, h₁, h₂, h₃⟩ := hscan
  rw [parseNumber_of_scan h₁ h₂ h₃ rfl rfl, hf]
  rfl

theorem failsStrictly_parseNumber (s : JsString) : FailsStrictly (parseNumber s) := by
  have hint (s : JsString) : FailsStrictly (scanInt s) := by
    unfold scanInt
    split_ifs <;> first | exact failsStrictly_fail _ _ _ | exact failsStrictly_ok _
  have hfrac (s : JsString) : FailsStrictly (scanFrac s) := by
    unfold scanFrac
    split_ifs <;> first | exact failsStrictly_fail _ _ _ | exact failsStrictly_ok _
  have hexp (s : JsString) : FailsStrictly (scanExp s) := by
    unfold scanExp
    dsimp only
    split_ifs <;> first | exact failsStrictly_fail _ _ _ | exact failsStrictly_ok _
  unfold parseNumber
  refine failsStrictly_bind (hint _) fun _ _ ↦ failsStrictly_bind (hfrac _) fun _ _ ↦
    failsStrictly_bind (hexp _) fun _ _ ↦ ?_
  dsimp only
  split
  · exact failsStrictly_fail _ _ _
  · exact failsStrictly_ok _

/-- A number token is not empty and starts with a minus sign or a digit. -/
theorem IsNumber.head {raw : JsString} (h : IsNumber raw) :
    ∃ c rest, raw = c :: rest ∧ (c = minusSign ∨ isDigit c = true) := by
  cases h with
  | positive int frac exp hi =>
    cases hi with
    | zero => exact ⟨_, _, rfl, .inr (by decide)⟩
    | digits d ds hd => exact ⟨_, _, rfl, .inr hd⟩
  | negative int frac exp hi => exact ⟨_, _, rfl, .inl rfl⟩

private theorem isDigit_lt {c : CodeUnit} (h : isDigit c = true) : c.toNat < 0xD800 := by
  simp only [isDigit, Bool.and_eq_true, decide_eq_true_eq] at h
  omega

/-- Number tokens hold no surrogates. -/
theorem IsNumber.lt {raw : JsString} (h : IsNumber raw) : ∀ c ∈ raw, c.toNat < 0xD800 := by
  have int {s : JsString} (hs : IsInt s) : ∀ c ∈ s, c.toNat < 0xD800 := by
    cases hs with
    | zero => simp [zeroDigit]
    | digits d ds hd _ hds =>
      rintro c hc
      rcases List.mem_cons.mp hc with rfl | hc
      · exact isDigit_lt hd
      · exact isDigit_lt (hds c hc)
  have frac {s : JsString} (hs : IsFrac s) : ∀ c ∈ s, c.toNat < 0xD800 := by
    cases hs with
    | absent => simp
    | digits ds hds =>
      rintro c hc
      rcases List.mem_cons.mp hc with rfl | hc
      · decide
      · exact isDigit_lt (hds.2 c hc)
  have mark {e : CodeUnit} (he : isExponentMark e = true) : e.toNat < 0xD800 := by
    simp only [isExponentMark, Bool.or_eq_true, decide_eq_true_eq] at he
    rcases he with rfl | rfl <;> decide
  have sign {c : CodeUnit} (hc : isSign c = true) : c.toNat < 0xD800 := by
    simp only [isSign, Bool.or_eq_true, decide_eq_true_eq] at hc
    rcases hc with rfl | rfl <;> decide
  have exp {s : JsString} (hs : IsExp s) : ∀ c ∈ s, c.toNat < 0xD800 := by
    cases hs with
    | absent => simp
    | unsigned e ds he hds =>
      rintro c hc
      rcases List.mem_cons.mp hc with rfl | hc
      · exact mark he
      · exact isDigit_lt (hds.2 c hc)
    | signed e s ds he hs hds =>
      rintro c hc
      rcases List.mem_cons.mp hc with rfl | hc
      · exact mark he
      · rcases List.mem_cons.mp hc with rfl | hc
        · exact sign hs
        · exact isDigit_lt (hds.2 c hc)
  have all {i f e : JsString} (hi : IsInt i) (hf : IsFrac f) (he : IsExp e) :
      ∀ c ∈ i ++ f ++ e, c.toNat < 0xD800 := by
    intro c hc
    rcases List.mem_append.mp hc with hc | hc
    · rcases List.mem_append.mp hc with hc | hc
      · exact int hi c hc
      · exact frac hf c hc
    · exact exp he c hc
  cases h with
  | positive i f e hi hf he => exact all hi hf he
  | negative i f e hi hf he =>
    intro c hc
    rcases List.mem_cons.mp hc with rfl | hc
    · decide
    · exact all hi hf he c hc

end TimeProofs.Json
