import TimeProofs.Core.Integrity
import TimeProofs.StripeConnector.Signature

/-!
# What a signature header authenticates

`verifyStripeWebhookSignature` returns only on a timestamp and a signature that the header has,
and on every header that has one timestamp and a signature over it.
-/

namespace TimeProofs.StripeConnector

open TimeProofs.Base TimeProofs.Json TimeProofs.Core

/-- `c.toLowerCase()` of an ASCII letter. -/
def lowerCase (c : CodeUnit) : CodeUnit :=
  if 0x41 ≤ c.toNat ∧ c.toNat ≤ 0x5A then c + 0x20 else c

/-- Two texts are the same, ignoring case. -/
def SpellsHex (candidate expected : JsString) : Prop := candidate.map lowerCase = expected

theorem lowerCase_of_isHexLower {c : CodeUnit} (h : isHexLower c = true) : lowerCase c = c := by
  simp only [isHexLower, isDigit, Bool.or_eq_true, Bool.and_eq_true, decide_eq_true_eq] at h
  rw [lowerCase, if_neg (by omega)]

theorem toNat_lowerCase (c : CodeUnit) :
    (lowerCase c).toNat =
      if 0x41 ≤ c.toNat ∧ c.toNat ≤ 0x5A then c.toNat + 0x20 else c.toNat := by
  unfold lowerCase
  split
  · next hupper =>
    rw [UInt16.toNat_add]
    have hconst : (0x20 : CodeUnit).toNat = 0x20 := rfl
    rw [hconst]
    exact Nat.mod_eq_of_lt (by omega)
  · rfl

theorem isHexUnit_iff {c : CodeUnit} : isHexUnit c = true ↔ isHexLower (lowerCase c) = true := by
  have hlower := toNat_lowerCase c
  simp only [isHexUnit, isHexLower, isDigit, Bool.or_eq_true, Bool.and_eq_true,
    decide_eq_true_eq]
  split at hlower <;> omega

theorem hexValue_lt {c : CodeUnit} (h : isHexUnit c = true) : hexValue c < 16 := by
  simp only [isHexUnit, isHexLower, isDigit, Bool.or_eq_true, Bool.and_eq_true,
    decide_eq_true_eq] at h
  simp only [hexValue, isHexLower, isDigit, Bool.or_eq_true, Bool.and_eq_true, decide_eq_true_eq]
  split_ifs <;> omega

theorem hexLower_hexValue {c : CodeUnit} (h : isHexUnit c = true) :
    hexLower (hexValue c) = lowerCase c := by
  have hlower := toNat_lowerCase c
  simp only [isHexUnit, isHexLower, isDigit, Bool.or_eq_true, Bool.and_eq_true,
    decide_eq_true_eq] at h
  have hvalue : hexValue c =
      if 0x30 ≤ c.toNat ∧ c.toNat ≤ 0x39 then c.toNat - 0x30
      else if 0x61 ≤ c.toNat ∧ c.toNat ≤ 0x66 then c.toNat - 0x61 + 10
      else c.toNat - 0x41 + 10 := by
    simp only [hexValue, isHexLower, isDigit, Bool.or_eq_true, Bool.and_eq_true,
      decide_eq_true_eq]
    split_ifs <;> omega
  apply UInt16.toNat_inj.mp
  rw [hlower, hexLower, hvalue]
  split_ifs <;> rw [UInt16.toNat_ofNat_of_lt' (by simp [UInt16.size]; omega)] <;> omega

/-- A hexadecimal text of even length spells its bytes. -/
theorem hexText_fromHex : ∀ {s : JsString}, s.all isHexUnit = true → s.length % 2 = 0 →
    hexText (fromHex s) = s.map lowerCase
  | [], _, _ => rfl
  | [_], _, h => by simp at h
  | high :: low :: rest, hall, heven => by
    simp only [List.all_cons, Bool.and_eq_true] at hall
    obtain ⟨hhigh, hlow, hrest⟩ := hall
    have hh := hexValue_lt hhigh
    have hl := hexValue_lt hlow
    have hbyte : (UInt8.ofNat (16 * hexValue high + hexValue low)).toNat =
        16 * hexValue high + hexValue low :=
      UInt8.toNat_ofNat_of_lt' (by simp only [UInt8.size]; omega)
    have ih := hexText_fromHex hrest (by simp at heven ⊢; omega)
    rw [fromHex, hexText, List.flatMap_cons, ← hexText, ih, hbyte]
    have hdiv : (16 * hexValue high + hexValue low) / 16 = hexValue high := by omega
    have hmod : (16 * hexValue high + hexValue low) % 16 = hexValue low := by omega
    rw [hdiv, hmod, hexLower_hexValue hhigh, hexLower_hexValue hlow]
    rfl

theorem map_lowerCase_hexText (bytes : List UInt8) :
    (hexText bytes).map lowerCase = hexText bytes := by
  conv_rhs => rw [← List.map_id (hexText bytes)]
  exact List.map_congr_left fun c hc ↦ lowerCase_of_isHexLower (isHexLower_of_mem_hexText hc)

theorem isHexText_of_spells {candidate : JsString} {bytes : List UInt8}
    (h : SpellsHex candidate (hexText bytes)) (hbytes : bytes ≠ []) :
    isHexText candidate = true := by
  have hlength := congrArg List.length h
  rw [List.length_map, length_hexText] at hlength
  have hpositive := List.length_pos_of_ne_nil hbytes
  rw [isHexText, Bool.and_eq_true, decide_eq_true_eq, List.all_eq_true]
  refine ⟨List.ne_nil_of_length_pos (by omega), fun c hc ↦ isHexUnit_iff.mpr ?_⟩
  apply isHexLower_of_mem_hexText
  rw [← h]
  exact List.mem_map_of_mem hc

/-- The comparison with a digest never throws; it ignores case. -/
theorem safeEqualHex_hexText (candidate : JsString) {bytes : List UInt8} (hbytes : bytes ≠ []) :
    ∃ equal, safeEqualHex candidate (hexText bytes) = .ok equal ∧
      (equal = true ↔ SpellsHex candidate (hexText bytes)) := by
  have hdigest : isHexText (hexText bytes) = true :=
    isHexText_of_spells (map_lowerCase_hexText bytes) hbytes
  by_cases hguard :
      (!isHexText candidate || !isHexText (hexText bytes) ||
        candidate.length ≠ (hexText bytes).length) = true
  · refine ⟨false, by rw [safeEqualHex, if_pos hguard], nofun, fun hspells ↦ ?_⟩
    have hlength := congrArg List.length hspells
    rw [List.length_map] at hlength
    simp [isHexText_of_spells hspells hbytes, hdigest, hlength] at hguard
  · simp only [Bool.or_eq_true, Bool.not_eq_true', decide_eq_true_eq, not_or, Bool.not_eq_false,
      not_not] at hguard
    obtain ⟨⟨hhex, -⟩, hlength⟩ := hguard
    have heven : candidate.length % 2 = 0 := by
      rw [hlength, length_hexText]
      omega
    have hunits (s : JsString) (h : isHexText s = true) : s.all isHexUnit = true := by
      rw [isHexText, Bool.and_eq_true] at h
      exact h.2
    -- both texts spell their bytes, so the buffers have one length
    have hcandidate := hexText_fromHex (hunits _ hhex) heven
    have hdecoded := hexText_fromHex (hunits _ hdigest) (by rw [← hlength]; exact heven)
    rw [map_lowerCase_hexText] at hdecoded
    have hlengths : (fromHex candidate).length = (fromHex (hexText bytes)).length := by
      have hleft := congrArg List.length hcandidate
      have hright := congrArg List.length hdecoded
      rw [length_hexText, List.length_map] at hleft
      rw [length_hexText] at hright
      omega
    refine ⟨_, by
      rw [safeEqualHex, if_neg (by simp [hhex, hdigest, hlength]), timingSafeEqual,
        if_pos hlengths], ?_⟩
    rw [decide_eq_true_eq, SpellsHex, ← hcandidate]
    constructor
    · intro heq
      rw [heq, hdecoded]
    · intro heq
      exact hexText_inj (heq.trans hdecoded.symm)

theorem someEqualHex_hexText (candidates : List JsString) {bytes : List UInt8}
    (hbytes : bytes ≠ []) :
    ∃ matched, someEqualHex (hexText bytes) candidates = .ok matched ∧
      (matched = true ↔ ∃ candidate ∈ candidates, SpellsHex candidate (hexText bytes)) := by
  induction candidates with
  | nil => exact ⟨false, rfl, by simp⟩
  | cons candidate rest ih =>
    obtain ⟨equal, hequal, hiff⟩ := safeEqualHex_hexText candidate hbytes
    obtain ⟨matched, hmatched, hrest⟩ := ih
    cases equal with
    | true =>
      refine ⟨true, ?_, fun _ ↦ ⟨candidate, List.mem_cons_self, hiff.mp rfl⟩, fun _ ↦ rfl⟩
      rw [someEqualHex, hequal]
      rfl
    | false =>
      refine ⟨matched, ?_, ?_⟩
      · rw [someEqualHex, hequal]
        exact hmatched
      · rw [hrest, List.exists_mem_cons_iff, or_iff_right fun h ↦ nomatch hiff.mpr h]

/-- `signatureHeader.split(',')`. -/
def headerParts (header : JsString) : List JsString := header.splitOn 0x2C

/-- The key of a part and its value up to a second equals sign. -/
def partField (part : JsString) : Option (JsString × JsString) :=
  match (trim part).splitOn 0x3D with
  | key :: value :: _ => some (key, value)
  | _ => none

/-- A `t` part with a decimal timestamp. -/
def IsTimestampPart (part : JsString) (timestamp : Nat) : Prop :=
  ∃ digits, partField part = some (js "t", digits) ∧ digits ≠ [] ∧ digits.all isDigit = true ∧
    digitsValue digits = timestamp

/-- A `v1` part with a signature. -/
def IsSignaturePart (part signature : JsString) : Prop :=
  partField part = some (js "v1", signature) ∧ signature ≠ []

theorem readPart_eq (parsed : ParsedHeader) (part : JsString) :
    readPart parsed part =
      match partField part with
      | some (key, value) =>
        if key = js "t" then
          if value ≠ [] ∧ value.all isDigit then
            { parsed with timestamp := some (digitsValue value) }
          else parsed
        else if key = js "v1" ∧ value ≠ [] then
          { parsed with signatures := parsed.signatures ++ [value] }
        else parsed
      | none => parsed := by
  unfold readPart partField
  match (trim part).splitOn 0x3D with
  | [] => rfl
  | [_] => rfl
  | _ :: _ :: _ => rfl

theorem mem_signatures_readPart {parsed : ParsedHeader} {part signature : JsString} :
    signature ∈ (readPart parsed part).signatures ↔
      signature ∈ parsed.signatures ∨ IsSignaturePart part signature := by
  have hkeys : js "t" ≠ js "v1" := by decide
  rw [readPart_eq, IsSignaturePart]
  cases partField part with
  | none => simp
  | some field =>
    obtain ⟨key, value⟩ := field
    simp only [Option.some_inj, Prod.mk.injEq]
    by_cases ht : key = js "t"
    · rw [if_pos ht]
      have hnot : ¬((key = js "v1" ∧ value = signature) ∧ signature ≠ []) :=
        fun h ↦ hkeys (ht.symm.trans h.1.1)
      rw [or_iff_left hnot]
      split <;> rfl
    · rw [if_neg ht]
      split
      · next hv1 =>
        simp only [List.mem_append, List.mem_singleton]
        constructor
        · rintro (hold | rfl)
          · exact .inl hold
          · exact .inr ⟨⟨hv1.1, rfl⟩, hv1.2⟩
        · rintro (hold | ⟨⟨-, rfl⟩, -⟩)
          · exact .inl hold
          · exact .inr rfl
      · next hv1 =>
        rw [or_iff_left]
        rintro ⟨⟨hkey, rfl⟩, hne⟩
        exact hv1 ⟨hkey, hne⟩

theorem timestamp_readPart (parsed : ParsedHeader) (part : JsString) :
    (∃ timestamp, IsTimestampPart part timestamp ∧
        (readPart parsed part).timestamp = some timestamp) ∨
      (∀ timestamp, ¬IsTimestampPart part timestamp) ∧
        (readPart parsed part).timestamp = parsed.timestamp := by
  rw [readPart_eq]
  unfold IsTimestampPart
  cases partField part with
  | none =>
    refine .inr ⟨?_, rfl⟩
    rintro timestamp ⟨digits, hfield, -⟩
    cases hfield
  | some field =>
    obtain ⟨key, value⟩ := field
    simp only [Option.some_inj, Prod.mk.injEq]
    by_cases ht : key = js "t"
    · rw [if_pos ht]
      split
      · next hdigits =>
        exact .inl ⟨digitsValue value, ⟨value, ⟨ht, rfl⟩, hdigits.1, hdigits.2, rfl⟩, rfl⟩
      · next hdigits =>
        refine .inr ⟨?_, rfl⟩
        rintro timestamp ⟨digits, ⟨-, rfl⟩, hne, hall, -⟩
        exact hdigits ⟨hne, hall⟩
    · rw [if_neg ht]
      refine .inr ⟨?_, by split <;> rfl⟩
      rintro timestamp ⟨digits, ⟨hkey, -⟩, -⟩
      exact ht hkey

/-- The signatures of a header are those of its parts. -/
theorem mem_signatures_foldl {parts : List JsString} {parsed : ParsedHeader}
    {signature : JsString} :
    signature ∈ (parts.foldl readPart parsed).signatures ↔
      signature ∈ parsed.signatures ∨ ∃ part ∈ parts, IsSignaturePart part signature := by
  induction parts generalizing parsed with
  | nil => simp
  | cons part rest ih =>
    rw [List.foldl_cons, ih, mem_signatures_readPart, List.exists_mem_cons_iff, or_assoc]

/-- The timestamp of a header is that of a part. -/
theorem timestamp_foldl_sound {parts : List JsString} {parsed : ParsedHeader} {timestamp : Nat}
    (h : (parts.foldl readPart parsed).timestamp = some timestamp) :
    parsed.timestamp = some timestamp ∨ ∃ part ∈ parts, IsTimestampPart part timestamp := by
  induction parts generalizing parsed with
  | nil => exact .inl h
  | cons part rest ih =>
    rw [List.foldl_cons] at h
    rcases ih h with hpart | ⟨later, hlater, hread⟩
    · rcases timestamp_readPart parsed part with ⟨found, hfound, heq⟩ | ⟨-, heq⟩
      · rw [heq] at hpart
        cases hpart
        exact .inr ⟨part, List.mem_cons_self, hfound⟩
      · exact .inl (heq.symm.trans hpart)
    · exact .inr ⟨later, List.mem_cons_of_mem part hlater, hread⟩

/-- Parts that are no timestamps leave the timestamp as it is. -/
theorem timestamp_foldl_other {parts : List JsString} (parsed : ParsedHeader)
    (h : ∀ part ∈ parts, ∀ timestamp, ¬IsTimestampPart part timestamp) :
    (parts.foldl readPart parsed).timestamp = parsed.timestamp := by
  induction parts generalizing parsed with
  | nil => rfl
  | cons part rest ih =>
    rw [List.foldl_cons, ih _ fun other hother ↦ h other (List.mem_cons_of_mem part hother)]
    rcases timestamp_readPart parsed part with ⟨found, hfound, -⟩ | ⟨-, heq⟩
    · exact absurd hfound (h part List.mem_cons_self found)
    · exact heq

theorem IsTimestampPart.unique {part : JsString} {m n : Nat} (hm : IsTimestampPart part m)
    (hn : IsTimestampPart part n) : m = n := by
  obtain ⟨digits, hfield, -, -, rfl⟩ := hm
  obtain ⟨digits', hfield', -, -, rfl⟩ := hn
  rw [hfield, Option.some_inj, Prod.mk.injEq] at hfield'
  rw [hfield'.2]

/-- The last timestamp of the parts is the one that is read. -/
theorem timestamp_foldl_last {before after : List JsString} {part : JsString} {timestamp : Nat}
    (parsed : ParsedHeader) (hpart : IsTimestampPart part timestamp)
    (h : ∀ other ∈ after, ∀ timestamp, ¬IsTimestampPart other timestamp) :
    ((before ++ part :: after).foldl readPart parsed).timestamp = some timestamp := by
  rw [List.foldl_append, List.foldl_cons, timestamp_foldl_other _ h]
  rcases timestamp_readPart (before.foldl readPart parsed) part with ⟨found, hfound, heq⟩ | ⟨hno, -⟩
  · rw [heq, hfound.unique hpart]
  · exact absurd hpart (hno timestamp)

/-- A header parses exactly when it has a timestamp that is a safe integer and a signature. -/
theorem parseStripeSignatureHeader_eq_ok {header : JsString} {timestamp : Nat}
    {signatures : List JsString} :
    parseStripeSignatureHeader (some header) = .ok (timestamp, signatures) ↔
      ((headerParts header).foldl readPart ⟨none, []⟩).timestamp = some timestamp ∧
        timestamp ≤ maxSafeInteger ∧
        ((headerParts header).foldl readPart ⟨none, []⟩).signatures = signatures ∧
        signatures ≠ [] := by
  unfold parseStripeSignatureHeader headerParts
  dsimp only
  by_cases hempty : header = []
  · subst hempty
    simp only [if_pos, failWith, reduceCtorEq, false_iff]
    rintro ⟨-, -, hsignatures, hne⟩
    exact hne (hsignatures ▸ rfl)
  · rw [if_neg hempty]
    generalize (header.splitOn 0x2C).foldl readPart ⟨none, []⟩ = parsed
    cases htimestamp : parsed.timestamp with
    | none => simp [failWith]
    | some found =>
      dsimp only
      split
      · next hok =>
        simp only [Except.ok.injEq, Prod.mk.injEq, Option.some_inj]
        constructor
        · rintro ⟨rfl, rfl⟩
          exact ⟨rfl, hok.1, rfl, hok.2⟩
        · rintro ⟨rfl, -, rfl, -⟩
          exact ⟨rfl, rfl⟩
      · next hbad =>
        simp only [failWith, reduceCtorEq, Option.some_inj, false_iff]
        rintro ⟨rfl, hsafe, rfl, hne⟩
        exact hbad ⟨hsafe, hne⟩

/-- A header that does not parse is refused by the connector. -/
theorem parseStripeSignatureHeader_error {header : Option JsString} {thrown : ConnectorThrown}
    (h : parseStripeSignatureHeader header = .error thrown) :
    ∃ code message, thrown = .connector code message := by
  unfold parseStripeSignatureHeader failWith at h
  split at h
  · cases h
    exact ⟨_, _, rfl⟩
  · dsimp only at h
    split_ifs at h
    · cases h
      exact ⟨_, _, rfl⟩
    · split at h
      · split_ifs at h
        cases h
        exact ⟨_, _, rfl⟩
      · cases h
        exact ⟨_, _, rfl⟩

/-! ### Authentication -/

/-- A timestamp is as close to the clock as the tolerance asks. -/
def WithinTolerance (nowMilliseconds : Int) (timestamp : Nat) : Prop :=
  (nowMilliseconds / 1000 - (timestamp : Int)).natAbs ≤ toleranceSeconds

/-- `verifyStripeWebhookSignature` on a body that it reads, in its four outcomes. -/
theorem verifyStripeWebhookSignature_cases {host : Host} {rawBody : RawBody} {body : JsString}
    (hbody : rawBody.decoded host = some body) {secret : JsString} (hsecret : secret ≠ [])
    (header : JsString) (now : Int) :
    (∃ thrown, parseStripeSignatureHeader (some header) = .error thrown ∧
        verifyStripeWebhookSignature host rawBody (some header) secret (some now) =
          .error thrown) ∨
      ∃ timestamp signatures,
        parseStripeSignatureHeader (some header) = .ok (timestamp, signatures) ∧
        (WithinTolerance now timestamp ∧
            (∃ signature ∈ signatures,
              SpellsHex signature (expectedSignature host secret timestamp body)) ∧
            verifyStripeWebhookSignature host rawBody (some header) secret (some now) =
              .ok ⟨timestamp, signatureAge (some now) timestamp⟩ ∨
          ¬(WithinTolerance now timestamp ∧ ∃ signature ∈ signatures,
              SpellsHex signature (expectedSignature host secret timestamp body)) ∧
            ∃ code message,
              verifyStripeWebhookSignature host rawBody (some header) secret (some now) =
                .error (.connector code message)) := by
  cases hparse : parseStripeSignatureHeader (some header) with
  | error thrown =>
    refine .inl ⟨thrown, rfl, ?_⟩
    rw [verifyStripeWebhookSignature, if_neg hsecret, hbody]
    dsimp only
    rw [hparse]
    rfl
  | ok parsed =>
    obtain ⟨timestamp, signatures⟩ := parsed
    refine .inr ⟨timestamp, signatures, rfl, ?_⟩
    have hdigest : (host.hmacSha256 (utf8 secret)
        (utf8 (decimal timestamp ++ js "." ++ body))).bytes ≠ [] :=
      List.ne_nil_of_length_pos (by rw [Sha256Digest.length_eq]; omega)
    obtain ⟨matched, hmatched, hiff⟩ := someEqualHex_hexText signatures hdigest
    have hverify : verifyStripeWebhookSignature host rawBody (some header) secret (some now) =
        if toleranceSeconds < (now / 1000 - (timestamp : Int)).natAbs then
          failWith .signatureTooOld (js "Stripe signature age " ++
            decimal (now / 1000 - (timestamp : Int)).natAbs ++
            js "s exceeds tolerance " ++ decimal toleranceSeconds ++ js "s.")
        else if matched then .ok ⟨timestamp, signatureAge (some now) timestamp⟩
        else failWith .signatureInvalid
          (js "Stripe webhook signature did not match the raw payload.") := by
      rw [verifyStripeWebhookSignature, if_neg hsecret, hbody]
      dsimp only
      rw [hparse]
      simp only [bind, Except.bind, expectedSignature, hmatched]
      rfl
    rw [hverify]
    by_cases hold : toleranceSeconds < (now / 1000 - (timestamp : Int)).natAbs
    · rw [if_pos hold]
      refine .inr ⟨fun h ↦ ?_, _, _, rfl⟩
      have hwithin := h.1
      unfold WithinTolerance at hwithin
      omega
    · have hwithin : WithinTolerance now timestamp := Nat.le_of_not_lt hold
      rw [if_neg hold]
      cases matched with
      | true => exact .inl ⟨hwithin, hiff.mp rfl, rfl⟩
      | false =>
        refine .inr ⟨fun h ↦ ?_, _, _, rfl⟩
        cases hiff.mpr h.2

/-- Whatever the shape of the header: a webhook that is accepted carries a timestamp within the
tolerance and a signature over that timestamp and the body; a header with one timestamp and a
signature over it is accepted, whatever else it has; and only the connector's own errors are
thrown. -/
theorem verifyStripeWebhookSignature_authentic (host : Host) (rawBody : RawBody)
    (header secret : JsString) (now : Int) :
    (∀ body verification, rawBody.decoded host = some body →
      verifyStripeWebhookSignature host rawBody (some header) secret (some now) =
        .ok verification →
      ∃ timestamp, WithinTolerance now timestamp ∧
        (∃ part ∈ headerParts header, IsTimestampPart part timestamp) ∧
        ∃ part ∈ headerParts header, ∃ signature, IsSignaturePart part signature ∧
          SpellsHex signature (expectedSignature host secret timestamp body)) ∧
    (∀ body timestamp before part after, rawBody.decoded host = some body → secret ≠ [] →
      now.natAbs ≤ maxTime → headerParts header = before ++ part :: after →
      IsTimestampPart part timestamp →
      (∀ other ∈ before ++ after, ∀ timestamp, ¬IsTimestampPart other timestamp) →
      WithinTolerance now timestamp →
      (∃ part ∈ headerParts header, ∃ signature, IsSignaturePart part signature ∧
        SpellsHex signature (expectedSignature host secret timestamp body)) →
      verifyStripeWebhookSignature host rawBody (some header) secret (some now) =
        .ok ⟨timestamp, signatureAge (some now) timestamp⟩) ∧
    ∀ thrown,
      verifyStripeWebhookSignature host rawBody (some header) secret (some now) = .error thrown →
      ∃ code message, thrown = .connector code message := by
  refine ⟨?_, ?_, ?_⟩
  · intro body verification hbody hverify
    have hsecret : secret ≠ [] := by
      rintro rfl
      rw [verifyStripeWebhookSignature, if_pos rfl] at hverify
      cases hverify
    obtain ⟨thrown, -, herror⟩ | ⟨timestamp, signatures, hparse, hcases⟩ :=
      verifyStripeWebhookSignature_cases hbody hsecret header now
    · rw [herror] at hverify
      cases hverify
    · obtain ⟨hread, -, hsignatures, -⟩ := parseStripeSignatureHeader_eq_ok.mp hparse
      obtain ⟨hwithin, ⟨signature, hmem, hspells⟩, -⟩ | ⟨-, code, message, herror⟩ := hcases
      · rw [← hsignatures, mem_signatures_foldl] at hmem
        obtain ⟨part, hpart, hsignature⟩ := hmem.resolve_left List.not_mem_nil
        exact ⟨timestamp, hwithin, (timestamp_foldl_sound hread).resolve_left nofun, part, hpart,
          signature, hsignature, hspells⟩
      · rw [herror] at hverify
        cases hverify
  · rintro body timestamp before part after hbody hsecret hnow hparts hpart hothers hwithin
      ⟨signed, hsigned, signature, hsignature, hspells⟩
    have hread : ((headerParts header).foldl readPart ⟨none, []⟩).timestamp = some timestamp := by
      rw [hparts]
      exact timestamp_foldl_last _ hpart fun other hother ↦
        hothers other (List.mem_append_right before hother)
    have hmem : signature ∈ ((headerParts header).foldl readPart ⟨none, []⟩).signatures :=
      mem_signatures_foldl.mpr (.inr ⟨signed, hsigned, hsignature⟩)
    have hsafe : timestamp ≤ maxSafeInteger := by
      unfold WithinTolerance toleranceSeconds at hwithin
      unfold maxTime at hnow
      unfold maxSafeInteger
      omega
    have hparse := parseStripeSignatureHeader_eq_ok.mpr
      ⟨hread, hsafe, rfl, List.ne_nil_of_mem hmem⟩
    obtain ⟨thrown, herror, -⟩ | ⟨found, signatures, hfound, hcases⟩ :=
      verifyStripeWebhookSignature_cases hbody hsecret header now
    · rw [hparse] at herror
      cases herror
    · rw [hparse] at hfound
      cases hfound
      obtain ⟨-, -, hok⟩ | ⟨hnot, -⟩ := hcases
      · exact hok
      · exact absurd ⟨hwithin, signature, hmem, hspells⟩ hnot
  · intro thrown hthrown
    by_cases hsecret : secret = []
    · rw [verifyStripeWebhookSignature, if_pos hsecret] at hthrown
      cases hthrown
      exact ⟨_, _, rfl⟩
    · cases hbody : rawBody.decoded host with
      | none =>
        rw [verifyStripeWebhookSignature, if_neg hsecret, hbody] at hthrown
        cases hthrown
        exact ⟨_, _, rfl⟩
      | some body =>
        obtain ⟨found, hparse, herror⟩ | ⟨timestamp, signatures, -, hcases⟩ :=
          verifyStripeWebhookSignature_cases hbody hsecret header now
        · rw [herror] at hthrown
          cases hthrown
          exact parseStripeSignatureHeader_error hparse
        · obtain ⟨-, -, hok⟩ | ⟨-, code, message, herror⟩ := hcases
          · rw [hok] at hthrown
            cases hthrown
          · rw [herror] at hthrown
            cases hthrown
            exact ⟨code, message, rfl⟩

/-- HMAC-SHA256 of `1784829661.{}` under the key `whsec_1`. -/
def emptyObjectSignature : String :=
  "e436656ba6c7ff927176addf5afd6d256a2d2dde920c68d1a155e195db9690d0"

/-- A host on that message. -/
def emptyObjectHost : Host :=
  { sampleRuntime with
    hmacSha256 := fun _ _ ↦ digestOf emptyObjectSignature
    decodeUtf8 := fun _ ↦ [] }

/-- The same signature in upper case, as a part with a tail. -/
def upperCasePart : JsString :=
  js " v1=E436656BA6C7FF927176ADDF5AFD6D256A2D2DDE920C68D1A155E195DB9690D0=end"

/-- A header with that signature among parts that count for nothing. -/
def mixedHeader : JsString := js " v1=0f1,x=y, t=01784829661=0 ,v0=,t ," ++ upperCasePart

theorem verifyStripeWebhookSignature_authentic_mixed :
    verifyStripeWebhookSignature emptyObjectHost (.text (js "\x7b\x7d")) (some mixedHeader)
        (js "whsec_1") (some 1784829900999) =
      .ok ⟨1784829661, some 239⟩ := by
  have hparts : headerParts mixedHeader =
      [js " v1=0f1", js "x=y"] ++ js " t=01784829661=0 " :: [js "v0=", js "t ", upperCasePart] := by
    decide
  have hothers : ∀ other ∈ [js " v1=0f1", js "x=y"] ++ [js "v0=", js "t ", upperCasePart],
      (partField other).all (fun field ↦ field.1 ≠ js "t") = true := by decide
  apply (verifyStripeWebhookSignature_authentic emptyObjectHost (.text (js "\x7b\x7d"))
    mixedHeader (js "whsec_1") 1784829900999).2.1 _ _ _ _ _ rfl (by decide) (by decide) hparts
  · exact ⟨js "01784829661", by decide, by decide, by decide, by decide⟩
  · rintro other hother timestamp ⟨digits, hfield, -⟩
    have hkey := hothers other hother
    rw [hfield] at hkey
    cases hkey
  · unfold WithinTolerance
    decide
  · refine ⟨upperCasePart, ?_, (upperCasePart.drop 4).take 64,
      ⟨by decide, by decide⟩, ?_⟩
    · rw [hparts]
      decide
    · unfold SpellsHex
      decide

end TimeProofs.StripeConnector
