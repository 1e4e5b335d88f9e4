import Mathlib.Data.List.Basic
import TimeProofs.Core.Constants
import TimeProofs.Core.Ecma

/-!
# Stripe webhook signatures

The signature functions of `packages/stripe-connector/src/index.mjs`. HMAC-SHA256 and the
decoding of a request body are given functions.
-/

namespace TimeProofs.StripeConnector

open TimeProofs.Base TimeProofs.Json TimeProofs.Core

/-- The host of the connector and the relay. -/
structure Host extends Runtime where
  /-- `createHmac('sha256', key).update(message).digest()`. -/
  hmacSha256 : List UInt8 → List UInt8 → Sha256Digest
  /-- `buffer.toString('utf8')`. -/
  decodeUtf8 : List UInt8 → JsString

/-- The codes of `StripeConnectorError`. -/
inductive StripeErrorCode where
  | signatureMissing | signatureMalformed | endpointSecretMissing | rawBodyRequired
  | signatureTooOld | signatureInvalid | eventUnsupported | refundObjectRequired
  | refundStatusUnsupported
deriving DecidableEq

/-- The code as the connector spells it. -/
def StripeErrorCode.text : StripeErrorCode → String
  | .signatureMissing => "STRIPE_SIGNATURE_MISSING"
  | .signatureMalformed => "STRIPE_SIGNATURE_MALFORMED"
  | .endpointSecretMissing => "STRIPE_ENDPOINT_SECRET_MISSING"
  | .rawBodyRequired => "STRIPE_RAW_BODY_REQUIRED"
  | .signatureTooOld => "STRIPE_SIGNATURE_TOO_OLD"
  | .signatureInvalid => "STRIPE_SIGNATURE_INVALID"
  | .eventUnsupported => "STRIPE_EVENT_UNSUPPORTED"
  | .refundObjectRequired => "STRIPE_REFUND_OBJECT_REQUIRED"
  | .refundStatusUnsupported => "STRIPE_REFUND_STATUS_UNSUPPORTED"

/-- What leaves a function of the connector by `throw`. -/
inductive ConnectorThrown where
  | connector (code : StripeErrorCode) (message : JsString)
  | other (thrown : Thrown)

/-- `throw new StripeConnectorError(code, message)`. -/
def failWith {α : Type} (code : StripeErrorCode) (message : JsString) :
    Except ConnectorThrown α :=
  .error (.connector code message)

/-- `raw.trim()`. -/
def trim (s : JsString) : JsString :=
  ((s.dropWhile isSpace).reverse.dropWhile isSpace).reverse

/-- `[0-9a-f]` under the `iu` flags. -/
def isHexUnit (c : CodeUnit) : Bool := isHexLower c || (0x41 ≤ c.toNat && c.toNat ≤ 0x46)

/-- The value of a hexadecimal digit. -/
def hexValue (c : CodeUnit) : Nat :=
  if isDigit c then c.toNat - 0x30
  else if isHexLower c then c.toNat - 0x61 + 10
  else c.toNat - 0x41 + 10

/-- `Buffer.from(s, 'hex')` of a string of hexadecimal digits. -/
def fromHex : JsString → List UInt8
  | high :: low :: rest => UInt8.ofNat (16 * hexValue high + hexValue low) :: fromHex rest
  | _ => []

/-- `timingSafeEqual` of `node:crypto`, which throws on buffers of different lengths. -/
def timingSafeEqual (left right : List UInt8) : Except ConnectorThrown Bool :=
  if left.length = right.length then .ok (left = right)
  else .error (.other (.rangeError (js "Input buffers must have the same byte length")))

/-- `/^[0-9a-f]+$/iu.test(s)`. -/
def isHexText (s : JsString) : Bool := s ≠ [] && s.all isHexUnit

/-- `safeEqualHex`, `index.mjs:20–23`. -/
def safeEqualHex (left right : JsString) : Except ConnectorThrown Bool :=
  if !isHexText left || !isHexText right || left.length ≠ right.length then .ok false
  else timingSafeEqual (fromHex left) (fromHex right)

/-- `signatures.some((candidate) => safeEqualHex(candidate, expected))`. -/
def someEqualHex (expected : JsString) : List JsString → Except ConnectorThrown Bool
  | [] => .ok false
  | candidate :: rest => do
    if ← safeEqualHex candidate expected then .ok true else someEqualHex expected rest

/-- The timestamp and the signatures read from a header so far. -/
structure ParsedHeader where
  timestamp : Option Nat
  signatures : List JsString

/-- A part of the header, `index.mjs:31–35`. A later timestamp replaces an earlier one. -/
def readPart (parsed : ParsedHeader) (part : JsString) : ParsedHeader :=
  match (trim part).splitOn 0x3D with
  | key :: value :: _ =>
    if key = js "t" then
      if value ≠ [] ∧ value.all isDigit then { parsed with timestamp := some (digitsValue value) }
      else parsed
    else if key = js "v1" ∧ value ≠ [] then
      { parsed with signatures := parsed.signatures ++ [value] }
    else parsed
  | _ => parsed

/-- `parseStripeSignatureHeader`, `index.mjs:25–41`. A numeral reads as a safe integer exactly
when the number it spells is one. -/
def parseStripeSignatureHeader (signatureHeader : Option JsString) :
    Except ConnectorThrown (Nat × List JsString) :=
  match signatureHeader with
  | none => failWith .signatureMissing (js "Stripe-Signature header is required.")
  | some header =>
    if header = [] then
      failWith .signatureMissing (js "Stripe-Signature header is required.")
    else
      let parsed := (header.splitOn 0x2C).foldl readPart ⟨none, []⟩
      match parsed.timestamp with
      | some timestamp =>
        if timestamp ≤ maxSafeInteger ∧ parsed.signatures ≠ [] then
          .ok (timestamp, parsed.signatures)
        else failWith .signatureMalformed
          (js "Stripe-Signature header must contain t and v1 values.")
      | none => failWith .signatureMalformed
          (js "Stripe-Signature header must contain t and v1 values.")

/-- The body of a webhook request as the caller gives it. -/
inductive RawBody where
  | text (s : JsString)
  | buffer (bytes : List UInt8)
  | other

/-- The text of a body. -/
def RawBody.decoded (host : Host) : RawBody → Option JsString
  | .text s => some s
  | .buffer bytes => some (host.decodeUtf8 bytes)
  | .other => none

/-- What `verifyStripeWebhookSignature` returns; the age is NaN when the clock has no time. -/
structure SignatureVerification where
  timestamp : Nat
  ageSeconds : Option Nat

/-- The age of a signature in seconds, `index.mjs:59`. -/
def signatureAge (nowMilliseconds : Option Int) (timestamp : Nat) : Option Nat :=
  nowMilliseconds.map fun (now : Int) ↦ (now / 1000 - (timestamp : Int)).natAbs

/-- The default of `toleranceSeconds`. -/
def toleranceSeconds : Nat := 300

/-- The digest that a signature must spell, `index.mjs:64`. -/
def expectedSignature (host : Host) (endpointSecret : JsString) (timestamp : Nat)
    (body : JsString) : JsString :=
  hexText (host.hmacSha256 (utf8 endpointSecret) (utf8 (decimal timestamp ++ js "." ++ body))).bytes

/-- `verifyStripeWebhookSignature`, `index.mjs:43–71`, at the default tolerance. -/
def verifyStripeWebhookSignature (host : Host) (rawBody : RawBody)
    (signatureHeader : Option JsString) (endpointSecret : JsString)
    (nowMilliseconds : Option Int) : Except ConnectorThrown SignatureVerification :=
  if endpointSecret = [] then
    failWith .endpointSecretMissing (js "Stripe endpoint secret is required.")
  else
    match rawBody.decoded host with
    | none => failWith .rawBodyRequired
        (js "Webhook verification requires the unmodified raw request body.")
    | some body => do
      let (timestamp, signatures) ← parseStripeSignatureHeader signatureHeader
      let age := signatureAge nowMilliseconds timestamp
      if toleranceSeconds < age.getD 0 then
        failWith .signatureTooOld (js "Stripe signature age " ++ decimal (age.getD 0) ++
          js "s exceeds tolerance " ++ decimal toleranceSeconds ++ js "s.")
      else if ← someEqualHex (expectedSignature host endpointSecret timestamp body) signatures then
        .ok ⟨timestamp, age⟩
      else
        failWith .signatureInvalid
          (js "Stripe webhook signature did not match the raw payload.")

end TimeProofs.StripeConnector
