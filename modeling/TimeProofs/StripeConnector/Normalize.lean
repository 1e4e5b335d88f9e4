import TimeProofs.Core.Builders
import TimeProofs.Core.Checks
import TimeProofs.StripeConnector.Signature

/-!
# Normalized refund events

`normalizeStripeRefundEvent` of `packages/stripe-connector/src/index.mjs`: one evidence item, one
or two outcome events and a relationship for each event, made from a parsed webhook.
-/

namespace TimeProofs.StripeConnector

open TimeProofs.Base TimeProofs.Json TimeProofs.Core

/-- `SUPPORTED_EVENT_TYPES`. -/
def supportedEventTypes : List JsString :=
  [js "refund.created", js "refund.updated", js "refund.failed"]

/-- `STRIPE_EXTENSION`. -/
def stripeExtension : JsString := js "org.timeproofs.connector.stripe"

/-- `[A-Za-z0-9_-]`. -/
def isIdUnit (c : CodeUnit) : Bool :=
  isLowerAlnum c || isUpperAlnum c || c = 0x5F || c = 0x2D

/-- `normalizedId`, `index.mjs:73–75`: every other code point becomes an underscore. -/
def normalizedId (value : JsString) : JsString :=
  (codePoints value).flatMap fun point ↦ if point.all isIdUnit then point else js "_"

/-- `normalizedId(v)` of any value: only strings have `replace`. -/
def normalizedIdOf : Json → Except Thrown JsString
  | .str s => .ok (normalizedId s)
  | _ => .error .notAFunction

/-- `isoFromUnix`, `index.mjs:77–79`. -/
def isoFromUnix (value : Option Json) (fallback : JsString) : Except Thrown JsString :=
  match value with
  | some (.num x) =>
    if x.isFinite then toIsoString (dateOfNumber (x * Float.ofModel (Float.Model.ofNat 1000)))
    else .ok fallback
  | _ => .ok fallback

/-- What a webhook says about the refund. -/
structure Descriptor where
  suffix : JsString
  phase : JsString
  eventType : JsString
  status : JsString

/-- `eventDescriptors`, `index.mjs:81–100`. -/
def eventDescriptors (stripeEvent : Json) : List Descriptor :=
  let type := get (some stripeEvent) (js "type")
  let status := get (get (get (some stripeEvent) (js "data")) (js "object")) (js "status")
  let created : Descriptor :=
    ⟨js "created", js "EFFECT", js "commerce.refund.created", js "SUCCEEDED"⟩
  let pending : Descriptor :=
    ⟨js "pending", js "SETTLEMENT", js "commerce.refund.settlement_pending", js "PENDING"⟩
  let settled : Descriptor :=
    ⟨js "settled", js "SETTLEMENT", js "commerce.refund.settled", js "SUCCEEDED"⟩
  let failed : Descriptor :=
    ⟨js "failed", js "SETTLEMENT", js "commerce.refund.settlement_failed", js "FAILED"⟩
  let cancelled : Descriptor :=
    ⟨js "cancelled", js "TERMINATION", js "commerce.refund.cancelled", js "CANCELLED"⟩
  (if isText type (js "refund.created") then [created] else []) ++
    (if isText status (js "pending") || isText status (js "requires_action") then [pending]
      else if isText status (js "succeeded") then [settled]
      else if isText status (js "failed") || isText type (js "refund.failed") then [failed]
      else if isText status (js "canceled") then [cancelled]
      else [])

/-- `v ?? null`. -/
def orNull (v : Option Json) : Json := v.getD .null

/-- `providerProjection`, `index.mjs:122–133`. -/
def providerProjection (host : Host) (stripeEvent : Json) : Members :=
  let refund := get (get (some stripeEvent) (js "data")) (js "object")
  let amount := get refund (js "amount")
  [(js "event_id", orNull (get (some stripeEvent) (js "id"))),
    (js "event_type", orNull (get (some stripeEvent) (js "type"))),
    (js "refund_id", orNull (get refund (js "id"))),
    (js "refund_status", orNull (get refund (js "status"))),
    (js "amount",
      match amount with
        | some (.num x) =>
          if isSafeInteger amount then .str (host.numberToString x) else .null
        | _ => .null),
    (js "currency", orNull (get refund (js "currency"))),
    (js "charge", orNull (get refund (js "charge"))),
    (js "payment_intent", orNull (get refund (js "payment_intent"))),
    (js "balance_transaction", orNull (get refund (js "balance_transaction"))),
    (js "failure_reason", orNull (get refund (js "failure_reason")))]

/-- The arguments of `normalizeStripeRefundEvent`. -/
structure NormalizeOptions where
  relayIssuerRef : JsString
  recordedAt : JsString
  signatureVerification : Option SignatureVerification

/-- What `normalizeStripeRefundEvent` returns. -/
structure Observation where
  connector : JsString
  issuerRef : JsString
  events : List Members
  evidence : Members
  relationships : List Members
  upstreamEventId : Json
  upstreamEventType : Json
  signatureVerified : Bool

/-- The `authentication` member, `index.mjs:152–156`. -/
def authentication : Option SignatureVerification → Except Thrown Members
  | some verification => do
    let signedAt ← toIsoString
      (if verification.timestamp * 1000 ≤ maxTime then some (verification.timestamp * 1000)
        else none)
    .ok [(js "verified", .bool true), (js "algorithm", .str (js "hmac-sha256")),
      (js "signed_at", .str signedAt)]
  | none => .ok [(js "verified", .bool false)]

/-- The evidence item of a webhook, `index.mjs:135–159`. -/
def stripeEvidence (host : Host) (stripeEvent : Json) (o : NormalizeOptions)
    (evidenceId eventIdText : JsString) (claimScope : List JsString) :
    Except Thrown Members := do
  let contentDigest ← (digestValue host.toRuntime stripeEvent).mapError .typeError
  let authentication ← authentication o.signatureVerification
  (createEvidenceItem host.toRuntime
    { evidenceId
      evidenceType := js "STRIPE_WEBHOOK_EVENT"
      mediaType := js "application/json"
      sourceClass := js "SYSTEM_OF_RECORD"
      issuerRef := o.relayIssuerRef
      claimScope
      contentDigest
      locator := [(js "scheme", .str (js "opaque")),
        (js "value", .str (js "stripe:event:" ++ eventIdText)),
        (js "retrieval_policy", .str (js "AUTHORIZED_ONLY"))]
      disclosure := js "COMMITMENT_ONLY"
      extensions := [(stripeExtension, .obj [(js "provider", .str (js "stripe")),
        (js "upstream_event", .obj (providerProjection host stripeEvent)),
        (js "authentication", .obj authentication)])] }).mapError .typeError

/-- `actor`, `index.mjs:161`. -/
def stripeActor : Json :=
  .obj [(js "entity_type", .str (js "PAYMENT_PROVIDER")), (js "entity_id", .str (js "stripe")),
    (js "display_name", .str (js "Stripe"))]

/-- `subject`, `index.mjs:162–166`. -/
def refundSubject (refundId : JsString) : Json :=
  .obj [(js "entity_type", .str (js "REFUND")), (js "entity_id", .str refundId),
    (js "display_name", .str (js "Stripe refund " ++ refundId))]

/-- An outcome event of a webhook, `index.mjs:168–188`. -/
def stripeOutcomeEvent (host : Host) (stripeEvent : Json) (o : NormalizeOptions)
    (refundId stripeEventId evidenceId occurredAt : JsString) (descriptor : Descriptor) :
    Except JsString Members :=
  createOutcomeEvent host.toRuntime
    { eventId := js "tpe_stripe_" ++ stripeEventId ++ js "_" ++ descriptor.suffix
      phase := descriptor.phase
      eventType := descriptor.eventType
      status := descriptor.status
      occurredAt := .str occurredAt
      recordedAt := o.recordedAt
      sourceClass := js "SYSTEM_OF_RECORD"
      issuerRef := o.relayIssuerRef
      actor := stripeActor
      subject := refundSubject refundId
      claim := .obj (providerProjection host stripeEvent)
      evidenceRefs := [evidenceId]
      extensions := [(stripeExtension,
        .obj [(js "normalized_from", orNull (get (some stripeEvent) (js "type"))),
          (js "upstream_signature_verified", .bool o.signatureVerification.isSome)])] }

/-- A relationship of a webhook, `index.mjs:190–196`. -/
def stripeRelationship (host : Host) (stripeEventId evidenceId : JsString) (index : Nat)
    (descriptor : Descriptor) : Except JsString Members :=
  createRelationship host.toRuntime
    { relationshipId := js "tpr_stripe_" ++ stripeEventId ++ js "_" ++ decimal (index + 1)
      relationshipType := js "SUPPORTS"
      fromRef := js "evidence:" ++ evidenceId
      toRef := js "event:" ++ (js "tpe_stripe_" ++ stripeEventId ++ js "_" ++ descriptor.suffix) }

/-- `normalizeStripeRefundEvent`, `index.mjs:102–213`. -/
def normalizeStripeRefundEvent (host : Host) (stripeEvent : Json) (o : NormalizeOptions) :
    Except ConnectorThrown Observation :=
  if !isOneOf supportedEventTypes (get (some stripeEvent) (js "type")) then
    failWith .eventUnsupported
      (js "Only refund.created, refund.updated, and refund.failed are supported.")
  else
    let refund := get (get (some stripeEvent) (js "data")) (js "object")
    match isText (get refund (js "object")) (js "refund"), get refund (js "id") with
    | true, some (.str refundId) =>
      let descriptors := eventDescriptors stripeEvent
      if descriptors = [] then do
        let status ← match get refund (js "status") with
          | none => .ok (js "missing")
          | some .null => .ok (js "missing")
          | some status => (toText host.toRuntime.withoutPrototypes status).mapError .other
        failWith .refundStatusUnsupported
          (js "Unsupported Stripe refund status: " ++ status ++ js ".")
      else
        (do
          let id := get (some stripeEvent) (js "id")
          let occurredAt ← isoFromUnix (get (some stripeEvent) (js "created")) o.recordedAt
          let stripeEventId ← normalizedIdOf
            (if isNullish id then .str (js "evt_" ++ refundId) else orNull id)
          let evidenceId := js "tpev_stripe_" ++ stripeEventId
          let evidence ← stripeEvidence host stripeEvent o evidenceId
            (if isNullish id then js "unknown" else stringOf id)
            (descriptors.map Descriptor.eventType)
          let events ← (collect (descriptors.map
            (stripeOutcomeEvent host stripeEvent o refundId stripeEventId evidenceId
              occurredAt))).mapError .typeError
          let relationships ← (collect (descriptors.mapIdx
            (stripeRelationship host stripeEventId evidenceId))).mapError .typeError
          .ok
            { connector := js "stripe-refunds-v0.1"
              issuerRef := o.relayIssuerRef
              events
              evidence
              relationships
              upstreamEventId := orNull id
              upstreamEventType := orNull (get (some stripeEvent) (js "type"))
              signatureVerified := o.signatureVerification.isSome } :
          Except Thrown Observation).mapError .other
    | _, _ => failWith .refundObjectRequired
        (js "Stripe event data.object must be a Refund object.")

end TimeProofs.StripeConnector
