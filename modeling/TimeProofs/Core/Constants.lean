import TimeProofs.Base.Base64url
import TimeProofs.Base.Regex

/-!
# Constants of the profile

`packages/core/src/constants.mjs`: the member names, vocabularies and patterns of TP-JSON-0.1.
The patterns are applied with the `u` flag; no class of them tells the two halves of a surrogate
pair apart, so they are stated over code units.
-/

namespace TimeProofs.Core

open TimeProofs.Base

def topLevelKeys : List JsString := [js "payload", js "proofs"]

def payloadKeys : List JsString :=
  [js "spec_version", js "profile", js "bundle_id", js "action_id", js "created_at",
    js "issuers", js "events", js "evidence", js "relationships",
    js "predecessor_bundle_digests", js "extensions"]

def issuerKeys : List JsString :=
  [js "issuer_id", js "display_name", js "issuer_type", js "identifiers", js "keys",
    js "extensions"]

def identifierKeys : List JsString := [js "scheme", js "value"]

def keyRequiredKeys : List JsString :=
  [js "key_id", js "algorithm", js "format", js "public_key"]

def keyOptionalKeys : List JsString := [js "valid_from", js "valid_until", js "revocation_ref"]

def entityRequiredKeys : List JsString := [js "entity_type", js "entity_id"]

def entityOptionalKeys : List JsString := [js "display_name"]

def eventKeys : List JsString :=
  [js "event_id", js "phase", js "event_type", js "status", js "occurred_at", js "recorded_at",
    js "source_class", js "issuer_ref", js "actor", js "subject", js "claim",
    js "evidence_refs", js "parent_event_digests", js "extensions", js "object_digest"]

def evidenceKeys : List JsString :=
  [js "evidence_id", js "evidence_type", js "media_type", js "source_class", js "issuer_ref",
    js "claim_scope", js "content_digest", js "locator", js "disclosure", js "extensions",
    js "object_digest"]

def locatorKeys : List JsString := [js "scheme", js "value", js "retrieval_policy"]

def relationshipKeys : List JsString :=
  [js "relationship_id", js "relationship_type", js "from_ref", js "to_ref", js "extensions",
    js "object_digest"]

def proofKeys : List JsString :=
  [js "proof_id", js "proof_type", js "target", js "issuer_ref", js "verification_method",
    js "created_at", js "algorithm", js "proof_value"]

def digestKeys : List JsString := [js "algorithm", js "value"]

def phases : List JsString :=
  [js "INTENT", js "AUTHORIZATION", js "DISPATCH", js "ACCEPTANCE", js "EFFECT",
    js "SETTLEMENT", js "TERMINATION"]

def statuses : List JsString :=
  [js "PENDING", js "SUCCEEDED", js "FAILED", js "PARTIAL", js "CANCELLED", js "REVERSED",
    js "EXPIRED"]

def sourceClasses : List JsString :=
  [js "SELF_CLAIMED", js "GATEWAY_OBSERVED", js "RECEIVER_ATTESTED", js "SYSTEM_OF_RECORD",
    js "INDEPENDENTLY_SETTLED"]

def targetTypes : List JsString :=
  [js "BUNDLE_PAYLOAD", js "OUTCOME_EVENT", js "EVIDENCE_ITEM", js "RELATIONSHIP"]

def issuerTypes : List JsString :=
  [js "AI_AGENT", js "GATEWAY", js "SERVICE", js "ORGANIZATION", js "SYSTEM",
    js "PAYMENT_PROVIDER", js "OTHER"]

def disclosures : List JsString :=
  [js "PUBLIC", js "RESTRICTED", js "PRIVATE", js "COMMITMENT_ONLY"]

def locatorSchemes : List JsString := [js "opaque", js "embedded", js "https"]

def retrievalPolicies : List JsString :=
  [js "PUBLIC", js "AUTHORIZED_ONLY", js "LOCAL_ONLY", js "UNAVAILABLE"]

def relationshipTypes : List JsString :=
  [js "SUPPORTS", js "CONTRADICTS", js "SUPERSEDES", js "REVERSES", js "CORRESPONDS_TO"]

/-- `[a-z0-9]`. -/
def isLowerAlnum (c : CodeUnit) : Bool := isDigit c || (0x61 ≤ c.toNat && c.toNat ≤ 0x7A)

/-- `[A-Z0-9]`. -/
def isUpperAlnum (c : CodeUnit) : Bool := isDigit c || (0x41 ≤ c.toNat && c.toNat ≤ 0x5A)

/-- `[A-Za-z0-9!#$&^_.+-]`. -/
def isMediaUnit (c : CodeUnit) : Bool := isLowerAlnum c || isUpperAlnum c || c ∈ js "!#$&^_.+-"

/-- `\s`. -/
def isSpace (c : CodeUnit) : Bool :=
  (0x09 ≤ c.toNat && c.toNat ≤ 0x0D) || (0x2000 ≤ c.toNat && c.toNat ≤ 0x200A) ||
    c ∈ [0x20, 0xA0, 0x1680, 0x2028, 0x2029, 0x202F, 0x205F, 0x3000, 0xFEFF]

/-- `.`. -/
def isDot (c : CodeUnit) : Bool := c ∉ [0x0A, 0x0D, 0x2028, 0x2029]

/-- `[a-z0-9]+(?:_[a-z0-9]+)*`. -/
def lowerToken : Regex CodeUnit :=
  .seq (.plus (.chars isLowerAlnum))
    (.star (.seq (.word (js "_")) (.plus (.chars isLowerAlnum))))

/-- `EVENT_TYPE_PATTERN`. -/
def eventTypePattern : Regex CodeUnit :=
  .seq lowerToken (.atLeast 2 (.seq (.word (js ".")) lowerToken))

/-- `EVIDENCE_TYPE_PATTERN`. -/
def evidenceTypePattern : Regex CodeUnit :=
  .seq (.plus (.chars isUpperAlnum))
    (.star (.seq (.chars (· ∈ js "._-")) (.plus (.chars isUpperAlnum))))

/-- `MEDIA_TYPE_PATTERN`. -/
def mediaTypePattern : Regex CodeUnit :=
  .seq (.plus (.chars isMediaUnit)) (.seq (.word (js "/")) (.seq (.plus (.chars isMediaUnit))
    (.opt (.seq (.star (.chars isSpace)) (.seq (.word (js ";")) (.star (.chars isDot)))))))

/-- `[^:\s]`. -/
def isRefUnit (c : CodeUnit) : Bool := c ≠ 0x3A && !isSpace c

/-- `RELATIONSHIP_REF_PATTERN`. -/
def relationshipRefPattern : Regex CodeUnit :=
  .seq (.alt (.word (js "event")) (.alt (.word (js "evidence")) (.word (js "issuer"))))
    (.seq (.word (js ":")) (.plus (.chars isRefUnit)))

/-- `BASE64URL_PATTERN`. -/
def base64urlPattern : Regex CodeUnit := .plus (.chars isUnit64)

/-- `/^.+#[^#]+$/u`, `verify-bundle.mjs:339`. -/
def verificationMethodPattern : Regex CodeUnit :=
  .seq (.plus (.chars isDot)) (.seq (.word (js "#")) (.plus (.chars (· ≠ 0x23))))

/-- `SHA256_PATTERN`, `digest.mjs:4`. -/
def sha256Pattern (s : JsString) : Bool := s.length = 64 && s.all isHexLower

/-- `EXTENSION_EVENT_TYPE_PATTERN`, `vocabulary.mjs:11`. -/
def extensionEventTypePattern : Regex CodeUnit :=
  .seq (.word (js "x.")) (.seq lowerToken (.atLeast 4 (.seq (.word (js ".")) lowerToken)))

end TimeProofs.Core
