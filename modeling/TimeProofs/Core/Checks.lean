import TimeProofs.Core.Proofs
import TimeProofs.Core.Vocabulary

/-!
# The checks of the bundle verifier

The functions of `packages/core/src/verify-bundle.mjs` that `verifyBundle` calls. Every check
reports its issues in the order of the source. A check that the source runs in a template string
or a pattern test on an ill-typed value may throw.
-/

namespace TimeProofs.Core

open TimeProofs.Base TimeProofs.Json

/-- An entry of `errors` or `warnings`. -/
structure Issue where
  code : ErrorCode
  message : JsString
  path : JsString
  detail : Option Json

/-- A check of the verifier. -/
abbrev BundleCheck := Check Thrown Issue

/-- `if (condition) addIssue(errors, code, message, path)`. -/
def flag (condition : Bool) (code : ErrorCode) (message : String) (path : JsString) :
    BundleCheck :=
  Check.issueWhen condition ⟨code, js message, path, none⟩

/-- `${path}.${name}`. -/
def child (path : JsString) (name : String) : JsString := path ++ js "." ++ js name

/-- `names.sort()`. -/
def sortNames (names : List JsString) : List JsString :=
  names.insertionSort fun s t ↦ compareUtf16 s t ≤ 0

/-- `exactKeys`, `verify-bundle.mjs:48–53`. -/
def exactKeys (object : Option Json) (expected : List JsString) : Bool :=
  match object with
  | some (.obj members) => sortNames (members.map Prod.fst) = sortNames expected
  | _ => false

/-- `allowedKeys`, `verify-bundle.mjs:55–60`. -/
def allowedKeys (object : Option Json) (required optional : List JsString) : Bool :=
  match object with
  | some (.obj members) =>
    required.all (· ∈ members.map Prod.fst) &&
      (members.map Prod.fst).all (· ∈ required ++ optional)
  | _ => false

/-- `typeof v === 'string' && SHA256_PATTERN.test(v)`. -/
def isSha256Hex : Option Json → Bool
  | some (.str s) => sha256Pattern s
  | _ => false

/-- `validDigest`, `verify-bundle.mjs:83–86`. -/
def validDigest (v : Option Json) : Bool :=
  exactKeys v digestKeys && isText (get v (js "algorithm")) (js "sha-256") &&
    isSha256Hex (get v (js "value"))

/-- `duplicates`, `verify-bundle.mjs:98–107`, on the identifiers of the values; `seen` are the
identifiers so far. -/
def duplicates {α : Type} (same : α → α → Bool) : List α → List α → List α
  | _, [] => []
  | seen, x :: rest =>
    if seen.any (same x) then x :: duplicates same seen rest
    else duplicates same (x :: seen) rest

/-- Whether `duplicates(texts)` is not empty. -/
def repeatsText (texts : List JsString) : Bool := duplicates (fun s t ↦ s = t) [] texts ≠ []

/-- Whether `duplicates(values)` is not empty. -/
def repeatsValue (values : List (Option Json)) : Bool :=
  !(duplicates sameValueZero [] values).isEmpty

/-- `canonicalBase64url`, `verify-bundle.mjs:109–117`. -/
def canonicalBase64url (v : Option Json) : Bool := (base64urlDecodeCanonical v).isOk

/-- `verifyObjectDigest`, `verify-bundle.mjs:119–132`. -/
def verifyObjectDigest (rt : Runtime) (object : Members) (path : JsString) : BundleCheck :=
  if !validDigest (member object (js "object_digest")) then
    flag true .objectDigestInvalid "Object digest is missing or malformed."
      (child path "object_digest")
  else
    match calculateObjectDigest rt object with
    | .error message => .ok [⟨.objectDigestCalculationFailed, message, path, none⟩]
    | .ok calculated =>
      Check.issueWhen (!digestEquals (some calculated) (member object (js "object_digest")))
        ⟨.objectDigestMismatch, js "Object digest does not match canonical object content.",
          child path "object_digest", some (.obj [(js "calculated", calculated)])⟩

/-- `${digest?.algorithm}:${digest?.value}`. -/
def digestKey (rt : Runtime) (digest : Json) : Except Thrown JsString := do
  let algorithm ← textOf rt (get (some digest) (js "algorithm"))
  let value ← textOf rt (get (some digest) (js "value"))
  .ok (algorithm ++ js ":" ++ value)

/-- The issue of a repeated identifier among coerced texts. -/
def repeatedTexts (texts : List (Except Thrown JsString)) (code : ErrorCode) (message : String)
    (path : JsString) : BundleCheck :=
  match collect texts with
  | .error thrown => .error thrown
  | .ok texts => flag (repeatsText texts) code message path

/-- A member that must be a non-empty string. -/
def requireText (members : Members) (name : String) (code : ErrorCode) (message : String)
    (path : JsString) : BundleCheck :=
  flag (!isNonEmptyString (member members (js name))) code message (child path name)

/-- A member that must be an object. -/
def requireObject (members : Members) (name : String) (code : ErrorCode) (message : String)
    (path : JsString) : BundleCheck :=
  flag (!isObject (member members (js name))) code message (child path name)

/-- `verifyEntityRef`, `verify-bundle.mjs:134–151`. -/
def verifyEntityRef (entity : Option Json) (path : JsString) (errorCode : ErrorCode) :
    BundleCheck :=
  match entity with
  | some (.obj members) => Check.all [
      flag (!allowedKeys entity entityRequiredKeys entityOptionalKeys) .entityRefMembersInvalid
        "Entity Reference members are not permitted by TP-JSON-0.1." path,
      requireText members "entity_type" .entityTypeInvalid
        "entity_type must be a non-empty string." path,
      requireText members "entity_id" .entityIdInvalid
        "entity_id must be a non-empty string." path,
      flag ((member members (js "display_name")).isSome &&
          !isString (member members (js "display_name"))) .entityDisplayNameInvalid
        "display_name must be a string when present." (child path "display_name")]
  | _ => flag true errorCode "Entity Reference must be an object." path

/-- An element of `issuer.identifiers`, `verify-bundle.mjs:166–174`. -/
def verifyIdentifier (path : JsString) (index : Nat) (identifier : Json) : BundleCheck :=
  let path := elementPath (child path "identifiers") index
  match identifier with
  | .obj members => Check.all [
      flag (!exactKeys (some identifier) identifierKeys) .identifierMembersInvalid
        "Identifier members must be exactly scheme and value." path,
      requireText members "scheme" .identifierSchemeInvalid
        "scheme must be a non-empty string." path,
      requireText members "value" .identifierValueInvalid
        "value must be a non-empty string." path]
  | _ => flag true .identifierNotObject "Identifier must be an object." path

/-- The text under which an identifier object is compared, `verify-bundle.mjs:175`. -/
def identifierKey (rt : Runtime) (identifier : Json) : Except Thrown JsString := do
  let scheme ← textOf rt (get (some identifier) (js "scheme"))
  let value ← textOf rt (get (some identifier) (js "value"))
  .ok (scheme ++ [0] ++ value)

/-- `issuer.identifiers`, `verify-bundle.mjs:162–178`. -/
def verifyIdentifiers (rt : Runtime) (identifiers : Option Json) (path : JsString) :
    BundleCheck :=
  match identifiers with
  | some (.arr identifiers) => Check.both
      (Check.each (verifyIdentifier path) identifiers)
      (repeatedTexts ((identifiers.filter fun v ↦ isObject (some v)).map (identifierKey rt))
        .duplicateIssuerIdentifier "Issuer identifiers must be unique by scheme and value."
        (child path "identifiers"))
  | _ => flag true .issuerIdentifiersInvalid "identifiers must be an array."
      (child path "identifiers")

/-- A string with the markers of an SPKI PEM public key, `verify-bundle.mjs:194`. -/
def isPemPublicKey : Option Json → Bool
  | some (.str s) => includes s (js "-----BEGIN PUBLIC KEY-----") &&
      includes s (js "-----END PUBLIC KEY-----")
  | _ => false

/-- An element of `issuer.keys`, `verify-bundle.mjs:183–205`. -/
def verifyKey (path : JsString) (index : Nat) (key : Json) : BundleCheck :=
  let path := elementPath (child path "keys") index
  match key with
  | .obj members =>
    let validFrom := member members (js "valid_from")
    let validUntil := member members (js "valid_until")
    Check.all [
      flag (!allowedKeys (some key) keyRequiredKeys keyOptionalKeys) .keyMembersInvalid
        "Key members are outside the TP-JSON-0.1 model." path,
      requireText members "key_id" .keyIdInvalid "key_id must be non-empty." path,
      flag (!isText (member members (js "algorithm")) (js "Ed25519")) .keyAlgorithmUnsupported
        "Only Ed25519 is supported in TP-JSON-0.1." (child path "algorithm"),
      flag (!isText (member members (js "format")) (js "spki-pem")) .keyFormatUnsupported
        "Only spki-pem is supported in TP-JSON-0.1." (child path "format"),
      flag (!isPemPublicKey (member members (js "public_key"))) .publicKeyInvalid
        "public_key must contain an SPKI PEM public key." (child path "public_key"),
      flag (validFrom.isSome && !validUtcTimestamp validFrom) .keyValidFromInvalid
        "valid_from must be a UTC timestamp." (child path "valid_from"),
      flag (validUntil.isSome && !validUtcTimestamp validUntil) .keyValidUntilInvalid
        "valid_until must be a UTC timestamp." (child path "valid_until"),
      flag (validUtcTimestamp validFrom && validUtcTimestamp validUntil &&
          compareTimestamps validUntil validFrom ≤ 0) .keyValidityIntervalInvalid
        "valid_until must be later than valid_from." path,
      flag ((member members (js "revocation_ref")).isSome &&
          !isNonEmptyString (member members (js "revocation_ref"))) .keyRevocationRefInvalid
        "revocation_ref must be a non-empty string when present." (child path "revocation_ref")]
  | _ => flag true .keyNotObject "Key must be an object." path

/-- `issuer.keys`, `verify-bundle.mjs:179–207`. -/
def verifyKeys (keys : Option Json) (path : JsString) : BundleCheck :=
  match keys with
  | some (.arr keys) => Check.both
      (Check.each (verifyKey path) keys)
      (flag (repeatsValue ((keys.filter fun v ↦ isObject (some v)).map fun key ↦
          get (some key) (js "key_id"))) .duplicateKeyId
        "key_id must be unique within an issuer." (child path "keys"))
  | _ => flag true .issuerKeysInvalid "keys must be an array." (child path "keys")

/-- `verifyIssuer`, `verify-bundle.mjs:153–209`. -/
def verifyIssuer (rt : Runtime) (issuer : Json) (path : JsString) : BundleCheck :=
  match issuer with
  | .obj members => Check.all [
      flag (!exactKeys (some issuer) issuerKeys) .issuerMembersInvalid
        "Issuer members do not match TP-JSON-0.1." path,
      requireText members "issuer_id" .issuerIdInvalid
        "issuer_id must be a non-empty string." path,
      requireText members "display_name" .issuerDisplayNameInvalid
        "display_name must be a non-empty string." path,
      flag (!isOneOf issuerTypes (member members (js "issuer_type"))) .issuerTypeInvalid
        "issuer_type is unsupported." (child path "issuer_type"),
      verifyIdentifiers rt (member members (js "identifiers")) path,
      verifyKeys (member members (js "keys")) path,
      requireObject members "extensions" .issuerExtensionsInvalid
        "extensions must be an object." path]
  | _ => flag true .issuerNotObject "Issuer must be an object." path

/-- The members of an event that must be non-empty strings, `verify-bundle.mjs:217`. -/
def eventTextMembers : List String :=
  ["event_id", "phase", "event_type", "status", "occurred_at", "recorded_at", "source_class",
    "issuer_ref"]

/-- A pattern test on a coerced member, `!PATTERN.test(value ?? '')`. -/
def requirePattern (rt : Runtime) (pattern : Regex CodeUnit) (v : Option Json)
    (code : ErrorCode) (message : String) (path : JsString) : BundleCheck :=
  match textOrEmpty rt v with
  | .error thrown => .error thrown
  | .ok text => flag (!pattern.test text) code message path

/-- The text of a string, and the empty string of any other value. -/
def stringOf : Option Json → JsString
  | some (.str s) => s
  | _ => []

/-- The vocabulary rules of an event, `verify-bundle.mjs:238–242`. -/
def verifyEventVocabulary (rt : Runtime) (members : Members) (path : JsString) : BundleCheck :=
  let phase := member members (js "phase")
  let status := member members (js "status")
  let sourceClass := member members (js "source_class")
  let eventType := member members (js "event_type")
  if isOneOf phases phase && isOneOf statuses status && isOneOf sourceClasses sourceClass then
    match textOrEmpty rt eventType with
    | .error thrown => .error thrown
    | .ok typeText =>
      if eventTypePattern.test typeText then
        match validateEventVocabulary eventType typeText (stringOf phase) (stringOf status)
            (stringOf sourceClass) with
        | .error thrown => .error thrown
        | .ok issues => .ok (issues.map fun issue ↦
            ⟨issue.code, issue.message,
              match issue.member with
                | some name => path ++ js "." ++ name
                | none => path, none⟩)
      else .ok []
  else .ok []

/-- `event.parent_event_digests`, `verify-bundle.mjs:230–231`. -/
def verifyParentDigests (rt : Runtime) (parents : Option Json) (path : JsString) : BundleCheck :=
  match parents with
  | some (.arr parents) => repeatedTexts (parents.map (digestKey rt)) .duplicateParentDigest
      "parent_event_digests must be unique." (child path "parent_event_digests")
  | _ => flag true .eventParentsInvalid "parent_event_digests must be an array."
      (child path "parent_event_digests")

/-- `event.evidence_refs`, `verify-bundle.mjs:232–233`. -/
def verifyEvidenceRefs (refs : Option Json) (path : JsString) : BundleCheck :=
  match refs with
  | some (.arr refs) => flag (repeatsValue (refs.map some)) .duplicateEventEvidenceRef
      "evidence_refs must be unique." (child path "evidence_refs")
  | _ => flag true .eventEvidenceRefsInvalid "evidence_refs must be an array."
      (child path "evidence_refs")

/-- `verifyEvent`, `verify-bundle.mjs:211–244`. -/
def verifyEvent (rt : Runtime) (issuerIds : List JsString) (event : Json) (path : JsString) :
    BundleCheck :=
  match event with
  | .obj members =>
    let occurredAt := member members (js "occurred_at")
    let recordedAt := member members (js "recorded_at")
    Check.all [
      flag (!exactKeys (some event) eventKeys) .eventMembersInvalid
        "Outcome Event members do not match TP-JSON-0.1." path,
      Check.all (eventTextMembers.map fun name ↦
        requireText members name .eventRequiredMemberInvalid
          (name ++ " must be a non-empty string.") path),
      flag (!isOneOf phases (member members (js "phase"))) .eventPhaseInvalid
        "Unknown lifecycle phase." (child path "phase"),
      requirePattern rt eventTypePattern (member members (js "event_type")) .eventTypeInvalid
        "event_type must use a lower-case namespaced token." (child path "event_type"),
      flag (!isOneOf statuses (member members (js "status"))) .eventStatusInvalid
        "Unknown event status." (child path "status"),
      flag (!isOneOf sourceClasses (member members (js "source_class"))) .sourceClassInvalid
        "Unknown evidence source class." (child path "source_class"),
      flag (!validUtcTimestamp occurredAt) .eventOccurredAtInvalid
        "occurred_at must be a UTC timestamp." (child path "occurred_at"),
      flag (!validUtcTimestamp recordedAt) .eventRecordedAtInvalid
        "recorded_at must be a UTC timestamp." (child path "recorded_at"),
      flag (validUtcTimestamp occurredAt && validUtcTimestamp recordedAt &&
          compareTimestamps recordedAt occurredAt < 0) .eventRecordedBeforeOccurred
        "recorded_at must not precede occurred_at." (child path "recorded_at"),
      flag (!isOneOf issuerIds (member members (js "issuer_ref"))) .eventIssuerNotFound
        "issuer_ref does not resolve." (child path "issuer_ref"),
      verifyParentDigests rt (member members (js "parent_event_digests")) path,
      verifyEvidenceRefs (member members (js "evidence_refs")) path,
      verifyEntityRef (member members (js "actor")) (child path "actor") .eventActorInvalid,
      verifyEntityRef (member members (js "subject")) (child path "subject")
        .eventSubjectInvalid,
      requireObject members "claim" .eventClaimInvalid "claim must be an object." path,
      requireObject members "extensions" .eventExtensionsInvalid
        "extensions must be an object." path,
      verifyEventVocabulary rt members path,
      verifyObjectDigest rt members path]
  | _ => flag true .eventNotObject "Outcome Event must be an object." path

/-- Whether `new URL(value)` succeeds with the protocol `https:`, `verify-bundle.mjs:256–261`. -/
def isHttpsUrl (rt : Runtime) (v : Option Json) : Bool :=
  match textOf rt v with
  | .error _ => false
  | .ok text => rt.urlProtocol text = some (js "https:")

/-- `verifyLocator`, `verify-bundle.mjs:246–266`. -/
def verifyLocator (rt : Runtime) (locator : Option Json) (path : JsString) : BundleCheck :=
  match locator with
  | some (.obj members) =>
    let scheme := member members (js "scheme")
    let policy := member members (js "retrieval_policy")
    Check.all [
      flag (!exactKeys locator locatorKeys) .locatorMembersInvalid
        "Locator members do not match TP-JSON-0.1." path,
      flag (!isOneOf locatorSchemes scheme) .locatorSchemeInvalid "Unknown locator scheme."
        (child path "scheme"),
      requireText members "value" .locatorValueInvalid
        "locator.value must be a non-empty string." path,
      flag (!isOneOf retrievalPolicies policy) .locatorRetrievalPolicyInvalid
        "Unknown retrieval policy." (child path "retrieval_policy"),
      flag (isText scheme (js "https") && !isHttpsUrl rt (member members (js "value")))
        .locatorValueInvalid "https locator values must be absolute HTTPS URLs."
        (child path "value"),
      flag (isText scheme (js "embedded") && isText policy (js "UNAVAILABLE"))
        .locatorPolicyConflict "Embedded evidence cannot use UNAVAILABLE retrieval policy." path]
  | _ => flag true .evidenceLocatorInvalid "locator must be an object." path

/-- The members of an evidence item that must be non-empty strings, `verify-bundle.mjs:274`. -/
def evidenceTextMembers : List String :=
  ["evidence_id", "evidence_type", "media_type", "source_class", "issuer_ref", "disclosure"]

/-- An element of `claim_scope` that is an event type. -/
def isEventType (v : Json) : Bool :=
  match v with
  | .str s => eventTypePattern.test s
  | _ => false

/-- The claim scope of an evidence item, `verify-bundle.mjs:283–287`. -/
def verifyClaimScope (scope : Option Json) (path : JsString) : BundleCheck :=
  let items := itemsOf scope
  if !isArray scope || items.isEmpty || items.any fun item ↦ !isEventType item then
    flag true .claimScopeInvalid "claim_scope must be a non-empty array of event type strings."
      (child path "claim_scope")
  else
    flag (repeatsValue (items.map some)) .duplicateClaimScope
      "claim_scope entries must be unique." (child path "claim_scope")

/-- `verifyEvidence`, `verify-bundle.mjs:268–291`. -/
def verifyEvidence (rt : Runtime) (issuerIds : List JsString) (evidence : Json)
    (path : JsString) : BundleCheck :=
  match evidence with
  | .obj members => Check.all [
      flag (!exactKeys (some evidence) evidenceKeys) .evidenceMembersInvalid
        "Evidence Item members do not match TP-JSON-0.1." path,
      Check.all (evidenceTextMembers.map fun name ↦
        requireText members name .evidenceRequiredMemberInvalid
          (name ++ " must be a non-empty string.") path),
      requirePattern rt evidenceTypePattern (member members (js "evidence_type"))
        .evidenceTypeInvalid "evidence_type must use an upper-case namespaced token."
        (child path "evidence_type"),
      requirePattern rt mediaTypePattern (member members (js "media_type")) .mediaTypeInvalid
        "media_type is invalid." (child path "media_type"),
      flag (!isOneOf sourceClasses (member members (js "source_class"))) .sourceClassInvalid
        "Unknown evidence source class." (child path "source_class"),
      flag (!isOneOf issuerIds (member members (js "issuer_ref"))) .evidenceIssuerNotFound
        "issuer_ref does not resolve." (child path "issuer_ref"),
      flag (!validDigest (member members (js "content_digest"))) .contentDigestInvalid
        "content_digest must be a SHA-256 digest." (child path "content_digest"),
      verifyLocator rt (member members (js "locator")) (child path "locator"),
      verifyClaimScope (member members (js "claim_scope")) path,
      flag (!isOneOf disclosures (member members (js "disclosure"))) .disclosureInvalid
        "Unknown disclosure class." (child path "disclosure"),
      requireObject members "extensions" .evidenceExtensionsInvalid
        "extensions must be an object." path,
      verifyObjectDigest rt members path]
  | _ => flag true .evidenceNotObject "Evidence Item must be an object." path

/-- The members of a relationship that must be non-empty strings, `verify-bundle.mjs:299`. -/
def relationshipTextMembers : List String :=
  ["relationship_id", "relationship_type", "from_ref", "to_ref"]

/-- The vocabulary rules of a relationship, `verify-bundle.mjs:307–311`. -/
def verifyRelationshipVocabulary (rt : Runtime) (members : Members) (path : JsString) :
    BundleCheck :=
  let relationshipType := member members (js "relationship_type")
  let fromRef := member members (js "from_ref")
  let toRef := member members (js "to_ref")
  if isOneOf relationshipTypes relationshipType then
    match textOrEmpty rt fromRef, textOrEmpty rt toRef with
    | .error thrown, _ => .error thrown
    | .ok _, .error thrown => .error thrown
    | .ok fromText, .ok toText =>
      if relationshipRefPattern.test fromText && relationshipRefPattern.test toText then
        .ok ((validateRelationshipVocabulary (stringOf relationshipType) fromRef toRef).map
          fun issue ↦ ⟨issue.code, issue.message, path, none⟩)
      else .ok []
  else .ok []

/-- `verifyRelationship`, `verify-bundle.mjs:293–314`. -/
def verifyRelationship (rt : Runtime) (relationship : Json) (path : JsString) : BundleCheck :=
  match relationship with
  | .obj members => Check.all [
      flag (!exactKeys (some relationship) relationshipKeys) .relationshipMembersInvalid
        "Relationship members do not match TP-JSON-0.1." path,
      Check.all (relationshipTextMembers.map fun name ↦
        requireText members name .relationshipRequiredMemberInvalid
          (name ++ " must be non-empty.") path),
      flag (!isOneOf relationshipTypes (member members (js "relationship_type")))
        .relationshipTypeInvalid "Unknown relationship type." (child path "relationship_type"),
      Check.all (["from_ref", "to_ref"].map fun name ↦
        requirePattern rt relationshipRefPattern (member members (js name))
          .relationshipRefInvalid
          (name ++ " must be a typed event, evidence, or issuer reference.")
          (child path name)),
      flag (strictEqual (member members (js "from_ref")) (member members (js "to_ref")))
        .relationshipSelfReference "Relationship endpoints must differ." path,
      verifyRelationshipVocabulary rt members path,
      requireObject members "extensions" .relationshipExtensionsInvalid
        "extensions must be an object." path,
      verifyObjectDigest rt members path]
  | _ => flag true .relationshipNotObject "Relationship must be an object." path

/-- `targetExpectedKeys`, `verify-bundle.mjs:316–318`. -/
def targetExpectedKeys (targetType : Option Json) : List JsString :=
  if isText targetType (js "BUNDLE_PAYLOAD") then [js "target_type", js "digest"]
  else [js "target_type", js "target_id", js "digest"]

/-- The target of a proof, `verify-bundle.mjs:328–337`. -/
def verifyProofTarget (target : Option Json) (path : JsString) : BundleCheck :=
  match target with
  | some (.obj members) =>
    let targetType := member members (js "target_type")
    let targetId := member members (js "target_id")
    let isPayload := isText targetType (js "BUNDLE_PAYLOAD")
    Check.all [
      flag (!isOneOf targetTypes targetType) .proofTargetTypeInvalid
        "Unknown proof target type." (child path "target_type"),
      flag (!exactKeys target (targetExpectedKeys targetType)) .proofTargetMembersInvalid
        "Proof Target members do not match target_type." path,
      flag (isPayload && targetId.isSome) .proofTargetIdForbidden
        "target_id is forbidden for BUNDLE_PAYLOAD." (child path "target_id"),
      flag (!isPayload && !isNonEmptyString targetId) .proofTargetIdRequired
        "target_id is required for non-payload targets." (child path "target_id"),
      flag (!validDigest (member members (js "digest"))) .proofTargetDigestInvalid
        "target.digest must be a SHA-256 digest." (child path "digest")]
  | _ => flag true .proofTargetInvalid "target must be an object." path

/-- A string of the form `issuer_id#key_id`, `verify-bundle.mjs:339`. -/
def isVerificationMethod : Option Json → Bool
  | some (.str s) => verificationMethodPattern.test s
  | _ => false

/-- `verifyProofShape`, `verify-bundle.mjs:320–344`, on a proof that is an object. -/
def verifyProofShape (issuerIds : List JsString) (members : Members) (path : JsString) :
    BundleCheck :=
  Check.all [
    flag (!exactKeys (some (.obj members)) proofKeys) .proofMembersInvalid
      "Proof members do not match TP-JSON-0.1." path,
    requireText members "proof_id" .proofIdInvalid "proof_id must be a non-empty string." path,
    flag (!isText (member members (js "proof_type")) (js "SIGNATURE")) .proofTypeUnsupported
      "Only SIGNATURE proofs are supported." (child path "proof_type"),
    verifyProofTarget (member members (js "target")) (child path "target"),
    flag (!isOneOf issuerIds (member members (js "issuer_ref"))) .proofIssuerNotFound
      "issuer_ref does not resolve." (child path "issuer_ref"),
    flag (!isVerificationMethod (member members (js "verification_method")))
      .verificationMethodInvalid
      "verification_method must be issuer_id#key_id." (child path "verification_method"),
    flag (!validUtcTimestamp (member members (js "created_at"))) .proofCreatedAtInvalid
      "created_at must be a UTC timestamp." (child path "created_at"),
    flag (!isText (member members (js "algorithm")) (js "Ed25519")) .proofAlgorithmUnsupported
      "Only Ed25519 is supported." (child path "algorithm"),
    flag (!canonicalBase64url (member members (js "proof_value"))) .proofValueInvalid
      "proof_value must be canonical unpadded base64url." (child path "proof_value")]

end TimeProofs.Core
