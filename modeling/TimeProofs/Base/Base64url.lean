import TimeProofs.Base.Utf16

/-!
# Base64url and hexadecimal text

The encodings of `Buffer` that appear in proofs and digests: unpadded base64url and lower-case
hexadecimal. Decoding undoes base64url encoding, and hexadecimal text determines its bytes.
-/

namespace TimeProofs.Base

/-- The character of a six-bit number. -/
def unit64 (n : Nat) : CodeUnit :=
  if n < 26 then UInt16.ofNat (0x41 + n)
  else if n < 52 then UInt16.ofNat (0x61 + (n - 26))
  else if n < 62 then UInt16.ofNat (0x30 + (n - 52))
  else if n = 62 then 0x2D
  else 0x5F

/-- `[A-Za-z0-9_-]`. -/
def isUnit64 (c : CodeUnit) : Bool :=
  (0x41 ≤ c.toNat && c.toNat ≤ 0x5A) || (0x61 ≤ c.toNat && c.toNat ≤ 0x7A) || isDigit c ||
    c = 0x5F || c = 0x2D

/-- The six-bit number of a character. -/
def value64 (c : CodeUnit) : Nat :=
  if 0x61 ≤ c.toNat && c.toNat ≤ 0x7A then c.toNat - 0x61 + 26
  else if 0x41 ≤ c.toNat && c.toNat ≤ 0x5A then c.toNat - 0x41
  else if isDigit c then c.toNat - 0x30 + 52
  else if c = 0x2D then 62
  else 63

/-- `Buffer.from(bytes).toString('base64url')`. -/
def encode64 : List UInt8 → JsString
  | a :: b :: c :: rest =>
    unit64 (a.toNat / 4) :: unit64 (a.toNat % 4 * 16 + b.toNat / 16) ::
      unit64 (b.toNat % 16 * 4 + c.toNat / 64) :: unit64 (c.toNat % 64) :: encode64 rest
  | [a, b] =>
    [unit64 (a.toNat / 4), unit64 (a.toNat % 4 * 16 + b.toNat / 16), unit64 (b.toNat % 16 * 4)]
  | [a] => [unit64 (a.toNat / 4), unit64 (a.toNat % 4 * 16)]
  | [] => []

/-- `Buffer.from(s, 'base64url')` on characters of the alphabet; spare bits are dropped. -/
def decode64 : JsString → List UInt8
  | a :: b :: c :: d :: rest =>
    UInt8.ofNat (value64 a * 4 + value64 b / 16) ::
      UInt8.ofNat (value64 b % 16 * 16 + value64 c / 4) ::
      UInt8.ofNat (value64 c % 4 * 64 + value64 d) :: decode64 rest
  | [a, b, c] =>
    [UInt8.ofNat (value64 a * 4 + value64 b / 16),
      UInt8.ofNat (value64 b % 16 * 16 + value64 c / 4)]
  | [a, b] => [UInt8.ofNat (value64 a * 4 + value64 b / 16)]
  | _ => []

private theorem value64_unit64 {n : Nat} (h : n < 64) : value64 (unit64 n) = n :=
  (by decide : ∀ n : Fin 64, value64 (unit64 n) = n) ⟨n, h⟩

private theorem isUnit64_unit64 {n : Nat} (h : n < 64) : isUnit64 (unit64 n) = true :=
  (by decide : ∀ n : Fin 64, isUnit64 (unit64 n) = true) ⟨n, h⟩

private theorem ofNat_eq {n : Nat} {a : UInt8} (h : n = a.toNat) : UInt8.ofNat n = a := by
  rw [h, UInt8.ofNat_toNat]

/-- Decoding undoes encoding. -/
theorem decode64_encode64 (bytes : List UInt8) : decode64 (encode64 bytes) = bytes := by
  induction bytes using encode64.induct with
  | case1 a b c rest ih =>
    have ha := a.toNat_lt
    have hb := b.toNat_lt
    have hc := c.toNat_lt
    rw [encode64, decode64, ih, value64_unit64 (by omega), value64_unit64 (by omega),
      value64_unit64 (by omega), value64_unit64 (by omega), ofNat_eq (a := a) (by omega),
      ofNat_eq (a := b) (by omega), ofNat_eq (a := c) (by omega)]
  | case2 a b =>
    have ha := a.toNat_lt
    have hb := b.toNat_lt
    rw [encode64, decode64, value64_unit64 (by omega), value64_unit64 (by omega),
      value64_unit64 (by omega), ofNat_eq (a := a) (by omega), ofNat_eq (a := b) (by omega)]
  | case3 a =>
    have ha := a.toNat_lt
    rw [encode64, decode64, value64_unit64 (by omega), value64_unit64 (by omega),
      ofNat_eq (a := a) (by omega)]
  | case4 => rfl

/-- Encoded text uses the alphabet only. -/
theorem isUnit64_of_mem_encode64 {bytes : List UInt8} {c : CodeUnit} (h : c ∈ encode64 bytes) :
    isUnit64 c = true := by
  induction bytes using encode64.induct with
  | case1 x y z rest ih =>
    have hx := x.toNat_lt
    have hy := y.toNat_lt
    have hz := z.toNat_lt
    simp only [encode64, List.mem_cons] at h
    rcases h with rfl | rfl | rfl | rfl | h
    · exact isUnit64_unit64 (by omega)
    · exact isUnit64_unit64 (by omega)
    · exact isUnit64_unit64 (by omega)
    · exact isUnit64_unit64 (by omega)
    · exact ih h
  | case2 x y =>
    have hx := x.toNat_lt
    have hy := y.toNat_lt
    simp only [encode64, List.mem_cons, List.not_mem_nil, or_false] at h
    rcases h with rfl | rfl | rfl <;> exact isUnit64_unit64 (by omega)
  | case3 x =>
    have hx := x.toNat_lt
    simp only [encode64, List.mem_cons, List.not_mem_nil, or_false] at h
    rcases h with rfl | rfl <;> exact isUnit64_unit64 (by omega)
  | case4 => simp [encode64] at h

theorem encode64_ne_nil {bytes : List UInt8} (h : bytes ≠ []) : encode64 bytes ≠ [] := by
  intro he
  have := decode64_encode64 bytes
  rw [he] at this
  exact h this.symm

/-- `[0-9a-f]`. -/
def isHexLower (c : CodeUnit) : Bool := isDigit c || (0x61 ≤ c.toNat && c.toNat ≤ 0x66)

/-- `bytes.toString('hex')`. -/
def hexText (bytes : List UInt8) : JsString :=
  bytes.flatMap fun b ↦ [hexLower (b.toNat / 16), hexLower (b.toNat % 16)]

private theorem hexLower_inj {m n : Nat} (hm : m < 16) (hn : n < 16)
    (h : hexLower m = hexLower n) : m = n := by
  have := (by decide : ∀ m n : Fin 16, hexLower m = hexLower n → m = n) ⟨m, hm⟩ ⟨n, hn⟩ h
  exact congrArg Fin.val this

theorem length_hexText (bytes : List UInt8) : (hexText bytes).length = 2 * bytes.length := by
  induction bytes with
  | nil => rfl
  | cons b rest ih =>
    rw [hexText, List.flatMap_cons, List.length_append, ← hexText, ih]
    simp only [List.length_cons, List.length_nil]
    omega

theorem isHexLower_of_mem_hexText {bytes : List UInt8} {c : CodeUnit} (h : c ∈ hexText bytes) :
    isHexLower c = true := by
  have hdigit : ∀ n : Fin 16, isHexLower (hexLower n) = true := by decide
  obtain ⟨b, -, hc⟩ := List.mem_flatMap.mp h
  have hb := b.toNat_lt
  simp only [List.mem_cons, List.not_mem_nil, or_false] at hc
  rcases hc with rfl | rfl
  · exact hdigit ⟨b.toNat / 16, by omega⟩
  · exact hdigit ⟨b.toNat % 16, by omega⟩

/-- Hexadecimal text determines the bytes. -/
theorem hexText_inj {x y : List UInt8} (h : hexText x = hexText y) : x = y := by
  induction x generalizing y with
  | nil =>
    cases y with
    | nil => rfl
    | cons b y => simp [hexText] at h
  | cons a x ih =>
    cases y with
    | nil => simp [hexText] at h
    | cons b y =>
      have ha := a.toNat_lt
      have hb := b.toNat_lt
      simp only [hexText, List.flatMap_cons, List.cons_append, List.nil_append,
        List.cons.injEq] at h
      have h₁ := hexLower_inj (by omega) (by omega) h.1
      have h₂ := hexLower_inj (by omega) (by omega) h.2.1
      rw [UInt8.toNat_inj.mp (by omega : a.toNat = b.toNat), ih h.2.2]

end TimeProofs.Base
