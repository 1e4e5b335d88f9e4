import TimeProofs.Base.Utf16

/-!
# Decoding UTF-8

`buffer.toString('utf8')`: the UTF-8 decoder of ECMAScript hosts, which replaces what is no UTF-8
by U+FFFD, one for each maximal part that could have become a character. The bytes of a
well-formed string are decoded to it.
-/

namespace TimeProofs.Base

/-- U+FFFD. -/
def replacementCharacter : CodeUnit := 0xFFFD

/-- A decoder within a character: the bytes that are still needed, the bounds of the next one, and
the bits so far. It is between characters when none is needed. -/
structure Utf8Decoder where
  needed : Nat
  lower : Nat
  upper : Nat
  bits : Nat

namespace Utf8Decoder

/-- Between two characters. -/
def start : Utf8Decoder := ⟨0, 0x80, 0xBF, 0⟩

/-- The first byte of a character: the decoder after it, and its output. -/
def lead (byte : Nat) : Utf8Decoder × JsString :=
  if byte ≤ 0x7F then (start, [UInt16.ofNat byte])
  else if 0xC2 ≤ byte ∧ byte ≤ 0xDF then (⟨1, 0x80, 0xBF, byte - 0xC0⟩, [])
  else if 0xE0 ≤ byte ∧ byte ≤ 0xEF then
    (⟨2, if byte = 0xE0 then 0xA0 else 0x80, if byte = 0xED then 0x9F else 0xBF, byte - 0xE0⟩, [])
  else if 0xF0 ≤ byte ∧ byte ≤ 0xF4 then
    (⟨3, if byte = 0xF0 then 0x90 else 0x80, if byte = 0xF4 then 0x8F else 0xBF, byte - 0xF0⟩, [])
  else (start, [replacementCharacter])

/-- One byte: the decoder after it, and its output. -/
def step (d : Utf8Decoder) (byte : Nat) : Utf8Decoder × JsString :=
  if d.needed = 0 then lead byte
  else if d.lower ≤ byte ∧ byte ≤ d.upper then
    let bits := 64 * d.bits + (byte - 0x80)
    if d.needed = 1 then (start, encodeUtf16 (Char.ofNat bits))
    else (⟨d.needed - 1, 0x80, 0xBF, bits⟩, [])
  else ((lead byte).1, replacementCharacter :: (lead byte).2)

/-- The output for the remaining bytes. -/
def decode : Utf8Decoder → List UInt8 → JsString
  | d, [] => if d.needed = 0 then [] else [replacementCharacter]
  | d, byte :: rest => (d.step byte.toNat).2 ++ decode (d.step byte.toNat).1 rest

theorem decode_cons {d d' : Utf8Decoder} {byte : Nat} {out : JsString} (hlt : byte < 256)
    (h : d.step byte = (d', out)) (rest : List UInt8) :
    d.decode (UInt8.ofNat byte :: rest) = out ++ d'.decode rest := by
  rw [decode, UInt8.toNat_ofNat_of_lt' hlt, h]

theorem step_start (byte : Nat) : start.step byte = lead byte := rfl

/-- The first byte of a character of two bytes. -/
theorem step_two {byte : Nat} (h : 0xC2 ≤ byte ∧ byte ≤ 0xDF) :
    start.step byte = (⟨1, 0x80, 0xBF, byte - 0xC0⟩, []) := by
  rw [step_start, lead, if_neg (by omega), if_pos h]

/-- The first byte of a character of three bytes. -/
theorem step_three {byte : Nat} (h : 0xE0 ≤ byte ∧ byte ≤ 0xEF) :
    start.step byte = (⟨2, if byte = 0xE0 then 0xA0 else 0x80,
      if byte = 0xED then 0x9F else 0xBF, byte - 0xE0⟩, []) := by
  rw [step_start, lead, if_neg (by omega), if_neg (by omega), if_pos h]

/-- The first byte of a character of four bytes. -/
theorem step_four {byte : Nat} (h : 0xF0 ≤ byte ∧ byte ≤ 0xF4) :
    start.step byte = (⟨3, if byte = 0xF0 then 0x90 else 0x80,
      if byte = 0xF4 then 0x8F else 0xBF, byte - 0xF0⟩, []) := by
  rw [step_start, lead, if_neg (by omega), if_neg (by omega), if_neg (by omega), if_pos h]

/-- A byte in the middle of a character. -/
theorem step_next {needed lower upper bits byte : Nat} (h : lower ≤ byte ∧ byte ≤ upper) :
    step ⟨needed + 2, lower, upper, bits⟩ byte =
      (⟨needed + 1, 0x80, 0xBF, 64 * bits + (byte - 0x80)⟩, []) := by
  rw [step, if_neg (by simp), if_pos h]
  exact if_neg (by simp)

/-- The last byte of a character. -/
theorem step_last {lower upper bits byte : Nat} (h : lower ≤ byte ∧ byte ≤ upper) :
    step ⟨1, lower, upper, bits⟩ byte =
      (start, encodeUtf16 (Char.ofNat (64 * bits + (byte - 0x80)))) := by
  rw [step, if_neg (by simp), if_pos h]
  exact if_pos rfl

/-- The bytes of a character are decoded to its code units. -/
theorem decode_utf8EncodeChar (c : Char) (rest : List UInt8) :
    start.decode (String.utf8EncodeChar c ++ rest) = encodeUtf16 c ++ start.decode rest := by
  have hvalid : c.val.toNat < 0xD800 ∨ 0xDFFF < c.val.toNat ∧ c.val.toNat < 0x110000 := c.valid
  have hc : Char.ofNat c.val.toNat = c := Char.ofNat_toNat c
  have hunits (hone : c.val.toNat ≤ 127) : encodeUtf16 c = [UInt16.ofNat c.val.toNat] :=
    if_pos (Nat.lt_of_le_of_lt hone (by decide))
  unfold String.utf8EncodeChar
  generalize c.val.toNat = v at hvalid hc hunits ⊢
  dsimp only
  split
  · next hone =>
    have hstep : start.step v = (start, [UInt16.ofNat v]) := by
      rw [step_start, lead, if_pos hone]
    rw [List.cons_append, decode_cons (by omega) hstep, hunits hone]
    rfl
  split
  · next hone htwo =>
    have hlast : 64 * (v / 64 % 32 + 192 - 192) + (v % 64 + 128 - 128) = v := by omega
    rw [List.cons_append, List.cons_append, decode_cons (by omega) (step_two (by omega)),
      decode_cons (by omega) (step_last (by omega)), hlast, hc]
    rfl
  split
  · next hone htwo hthree =>
    have hlast : 64 * (64 * (v / 4096 % 16 + 224 - 224) + (v / 64 % 64 + 128 - 128)) +
        (v % 64 + 128 - 128) = v := by omega
    rw [List.cons_append, List.cons_append, List.cons_append,
      decode_cons (by omega) (step_three (by omega)),
      decode_cons (by omega) (step_next (by split <;> split <;> omega)),
      decode_cons (by omega) (step_last (by omega)), hlast, hc]
    rfl
  · next hone htwo hthree =>
    have hlast : 64 * (64 * (64 * (v / 262144 % 8 + 240 - 240) + (v / 4096 % 64 + 128 - 128)) +
        (v / 64 % 64 + 128 - 128)) + (v % 64 + 128 - 128) = v := by omega
    rw [List.cons_append, List.cons_append, List.cons_append, List.cons_append,
      decode_cons (by omega) (step_four (by omega)),
      decode_cons (by omega) (step_next (by split <;> split <;> omega)),
      decode_cons (by omega) (step_next (by omega)),
      decode_cons (by omega) (step_last (by omega)), hlast, hc]
    rfl

end Utf8Decoder

/-- `buffer.toString('utf8')`. -/
def decodeUtf8 (bytes : List UInt8) : JsString := Utf8Decoder.start.decode bytes

/-- The bytes of a well-formed string are decoded to it. -/
theorem decodeUtf8_utf8 {s : JsString} (h : wellFormed s = true) : decodeUtf8 (utf8 s) = s := by
  have hscalars (l : List Char) :
      decodeUtf8 (l.flatMap String.utf8EncodeChar) = l.flatMap encodeUtf16 := by
    induction l with
    | nil => rfl
    | cons c rest ih =>
      rw [List.flatMap_cons, List.flatMap_cons, ← ih]
      exact Utf8Decoder.decode_utf8EncodeChar c _
  rw [utf8, hscalars, flatMap_encodeUtf16_toScalars h]

end TimeProofs.Base
