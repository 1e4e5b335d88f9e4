import TimeProofs.Relay.Store

/-!
# The relay service

`packages/relay/src/service.mjs`: recording an action and ingesting a Stripe webhook. What a call
computes between two file accesses is a function of its own; `recordAction` and
`ingestStripeWebhook` are the calls when nothing else runs.
-/

namespace TimeProofs.Relay

open TimeProofs.Base TimeProofs.Json TimeProofs.Core TimeProofs.VerdictEngine
  TimeProofs.StripeConnector

/-- The key pair of the relay, `keys.mjs`. -/
structure RelayKey where
  keyId : JsString
  publicKeyPem : JsString
  privateKeyPem : JsString

/-- What the calls of a relay process share, `service.mjs:97–107`. -/
structure RelayService where
  issuerId : JsString
  key : RelayKey
  stripeWebhookSecret : Option JsString

/-- The rejection of a request that does not pass a check of the service. -/
def invalid (code : ServiceErrorCode) (message : JsString) : Rejection :=
  .service code message 400

/-- A part of the core that throws. -/
def throwing {α : Type} (r : Except Thrown α) : Except Rejection α := r.mapError .other

/-- A digest that may not exist. -/
def digesting {α : Type} (r : Except JsString α) : Except Rejection α :=
  r.mapError fun message ↦ .other (.typeError message)

/-- `safeId`, `service.mjs:31–33`. -/
def safeId (host : Host) (value : JsString) : JsString :=
  (sha256Hex host.toRuntime (utf8 value)).take 20

/-- `requiredEntity`, `service.mjs:35–44`. -/
def requiredEntity (value : Option Json) (fieldName : String) : Except Rejection Members :=
  match get value (js "entity_type"), get value (js "entity_id") with
  | some (.str entityType), some (.str entityId) =>
    .ok ([(js "entity_type", .str entityType), (js "entity_id", .str entityId)] ++
      match get value (js "display_name") with
        | some (.str displayName) => [(js "display_name", .str displayName)]
        | _ => [])
  | _, _ => .error (invalid .entityInvalid
      (js fieldName ++ js " must contain entity_type and entity_id."))

/-- The extension member of the relay. -/
def relayExtension (members : Members) : Members :=
  [(js "org.timeproofs.relay", .obj members)]

/-- `relayIssuer`, `service.mjs:62–81`. -/
def relayIssuer (relay : RelayService) : Members :=
  createIssuerDescriptor
    { issuerId := relay.issuerId
      displayName := js "TimeProofs Relay"
      issuerType := js "GATEWAY"
      identifiers := [.obj [(js "scheme", .str (js "urn")), (js "value", .str relay.issuerId)]]
      keys := [.obj [(js "key_id", .str relay.key.keyId), (js "algorithm", .str (js "Ed25519")),
        (js "format", .str (js "spki-pem")), (js "public_key", .str relay.key.publicKeyPem)]]
      extensions := relayExtension
        [(js "role", .str (js "operator_controlled_evidence_relay")),
          (js "version", .str (js "0.1.0-alpha.0"))] }

/-- A target of a proof, before its digest is added. -/
def targetOf (targetType targetId : JsString) : Members :=
  [(js "target_type", .str targetType), (js "target_id", .str targetId)]

/-- `signTargets`, `service.mjs:83–95`: one proof for each target, after those of the bundle. -/
def signTargets (host : Host) (relay : RelayService) (bundle : Members) (targets : List Members)
    (createdAt proofIds : JsString) : Except Thrown Members := do
  let proofs ← collect (targets.mapIdx fun index target ↦ createSignatureProof host.toRuntime
    { bundle, target, issuerRef := relay.issuerId, keyId := relay.key.keyId
      privateKeyPem := relay.key.privateKeyPem
      proofId := proofIds ++ js "_" ++ decimal (index + 1)
      createdAt })
  .ok (setMember bundle (js "proofs") (.arr ((sectionsOf bundle).proofs ++ proofs)))

/-- `buildOutcomePacket(bundle, verifyBundle(bundle), evaluateBundle(bundle, ruleset))`. -/
def packetOf (host : Host) (bundle : Members) (ruleset generatedAt : JsString) :
    Except Thrown OutcomePacket := do
  let verification ← verifyBundle host.toRuntime (.obj bundle)
  let evaluation ← evaluateBundle host.toRuntime (.obj bundle) ruleset
  buildOutcomePacket host.toRuntime bundle verification evaluation generatedAt

/-- `currentSummary`, `service.mjs:46–60`. -/
def currentSummary (host : Host) (bundle : Members) (ruleset generatedAt : JsString) :
    Except Thrown CurrentSummary := do
  let packet ← packetOf host bundle ruleset generatedAt
  .ok
    { actionId := packet.actionId
      bundleId := packet.bundleId
      payloadDigest := packet.payloadDigest
      structuralStatus := packet.structuralStatus
      verdict := packet.verdict
      reasons := packet.reasons
      decisiveEvents := packet.decisiveEvents
      missingEvidence := packet.missingEvidence
      updatedAt := get (member bundle (js "payload")) (js "created_at") }

/-! ### Recording an action -/

/-- A request to record an action, with the reading of the clock. -/
structure ActionRequest where
  input : Json
  now : Option Int
  /-- The time that the packets carry. -/
  generatedAt : JsString

/-- The checked members of a request, `service.mjs:109–121`. -/
structure ActionInput where
  actionId : JsString
  correlations : Members
  actor : Members
  subject : Members
  claim : Json
  occurredAt : Option Json

/-- `v && typeof v === 'object'`. -/
def isObjectLike : Option Json → Bool
  | some (.obj _) => true
  | some (.arr _) => true
  | _ => false

/-- The checks of a request, `service.mjs:110–122`. -/
def checkAction (input : Json) : Except Rejection ActionInput := do
  let own (name : String) := get (some input) (js name)
  if !isObjectLike (some input) then
    .error (invalid .actionBodyInvalid (js "Action body must be a JSON object."))
  else
    match own "action_id" with
    | some (.str actionId) =>
      if actionId = [] then .error (invalid .actionIdInvalid (js "action_id is required."))
      else if (own "correlations").isSome && !isObject (own "correlations") then
        .error (invalid .correlationsInvalid
          (js "correlations must be a JSON object when present."))
      else if !(isNullish (own "ruleset") || isText (own "ruleset") refundRuleset) then
        .error (invalid .rulesetNotSupported
          (js "Only refund-v0.1 is supported by the alpha Relay."))
      else
        let actor ← requiredEntity (own "actor") "actor"
        let subject ← requiredEntity (own "subject") "subject"
        .ok
          { actionId
            correlations := membersOf (own "correlations")
            actor
            subject
            claim := if isObjectLike (own "claim") then orNull (own "claim") else .obj []
            occurredAt := if isNullish (own "occurred_at") then none else own "occurred_at" }
    | _ => .error (invalid .actionIdInvalid (js "action_id is required."))

/-- The evidence item of a recorded action, `service.mjs:128–146`. -/
def claimEvidence (host : Host) (relay : RelayService) (a : ActionInput) (suffix : JsString) :
    Except JsString Members := do
  let contentDigest ← digestValue host.toRuntime (.obj [(js "action_id", .str a.actionId),
    (js "actor", .obj a.actor), (js "subject", .obj a.subject), (js "claim", a.claim)])
  createEvidenceItem host.toRuntime
    { evidenceId := js "tpev_claim_" ++ suffix
      evidenceType := js "AGENT_ACTION_CLAIM"
      mediaType := js "application/json"
      sourceClass := js "SELF_CLAIMED"
      issuerRef := relay.issuerId
      claimScope := [js "commerce.refund.requested"]
      contentDigest
      locator := [(js "scheme", .str (js "opaque")),
        (js "value", .str (js "relay:claim:" ++ a.actionId)),
        (js "retrieval_policy", .str (js "LOCAL_ONLY"))]
      disclosure := js "COMMITMENT_ONLY"
      extensions := relayExtension [(js "recorded_by_relay", .bool true),
        (js "claimant_identity_independently_verified", .bool false)] }

/-- The outcome event of a recorded action, `service.mjs:147–165`. -/
def claimEvent (host : Host) (relay : RelayService) (a : ActionInput)
    (suffix timestamp : JsString) : Except JsString Members :=
  createOutcomeEvent host.toRuntime
    { eventId := js "tpe_claim_" ++ suffix
      phase := js "INTENT"
      eventType := js "commerce.refund.requested"
      status := js "SUCCEEDED"
      occurredAt := a.occurredAt.getD (.str timestamp)
      recordedAt := timestamp
      sourceClass := js "SELF_CLAIMED"
      issuerRef := relay.issuerId
      actor := .obj a.actor
      subject := .obj a.subject
      claim := a.claim
      evidenceRefs := [js "tpev_claim_" ++ suffix]
      extensions := relayExtension [(js "semantics",
        .str (js "relay_records_agent_claim_without_upgrading_factual_strength"))] }

/-- The relationship of a recorded action, `service.mjs:166–171`. -/
def claimRelationship (host : Host) (suffix : JsString) : Except JsString Members :=
  createRelationship host.toRuntime
    { relationshipId := js "tpr_claim_" ++ suffix
      relationshipType := js "SUPPORTS"
      fromRef := js "evidence:" ++ (js "tpev_claim_" ++ suffix)
      toRef := js "event:" ++ (js "tpe_claim_" ++ suffix) }

/-- The bundle id of a revision, `service.mjs:173` and `233`. -/
def bundleIdOf (host : Host) (actionId : JsString) (revision : Nat) : JsString :=
  js "tpb_" ++ safeId host actionId ++ js "_r" ++ padStart 6 (decimal revision)

/-- The part of `createAction` before it awaits the store, `service.mjs:109–188`. -/
def prepareAction (host : Host) (relay : RelayService) (request : ActionRequest) :
    Except Rejection NewAction := do
  let a ← checkAction request.input
  let timestamp ← throwing (toIsoString request.now)
  let suffix := safeId host a.actionId
  let evidence ← digesting (claimEvidence host relay a suffix)
  let event ← digesting (claimEvent host relay a suffix timestamp)
  let relationship ← digesting (claimRelationship host suffix)
  let unsigned := createEvidenceBundle
    { bundleId := bundleIdOf host a.actionId 1
      actionId := a.actionId
      createdAt := timestamp
      issuers := [.obj (relayIssuer relay)]
      events := [.obj event]
      evidence := [.obj evidence]
      relationships := [.obj relationship]
      extensions := relayExtension [(js "revision", natNumber 1),
        (js "ruleset", .str refundRuleset), (js "correlations", .obj a.correlations)] }
  let bundle ← throwing (signTargets host relay unsigned
    [targetOf (js "EVIDENCE_ITEM") (js "tpev_claim_" ++ suffix),
      targetOf (js "OUTCOME_EVENT") (js "tpe_claim_" ++ suffix)]
    timestamp (js "tpp_claim_" ++ suffix))
  let current ← throwing (currentSummary host bundle refundRuleset request.generatedAt)
  .ok { actionId := a.actionId, bundle, current, ruleset := refundRuleset
        correlations := a.correlations }

/-- A settled revision with its packet. -/
structure Response where
  stored : StoredRevision
  packet : OutcomePacket

/-- `createAction`, `service.mjs:109–196`. -/
def recordAction (host : Host) (relay : RelayService) (request : ActionRequest) :
    StoreCall Response := do
  let a ← Call.ofExcept (prepareAction host relay request)
  let stored ← createAction host a
  let packet ← Call.ofExcept
    (throwing (packetOf host a.bundle refundRuleset request.generatedAt))
  return { stored, packet }

/-! ### Ingesting a webhook -/

/-- A webhook delivery, with the three readings of the clock. -/
structure WebhookRequest where
  rawBody : RawBody
  signatureHeader : Option JsString
  nowAtVerification : Option Int
  nowAtRecording : Option Int
  nowAtRevision : Option Int
  /-- The time that the packets carry. -/
  generatedAt : JsString

/-- A webhook that passed its checks. -/
structure ReceivedWebhook where
  stripeEvent : Json
  observation : Observation
  refundId : JsString

/-- The rejection of a webhook for what the connector throws, `service.mjs:215–220`. -/
def connectorRejection : ConnectorThrown → Rejection
  | .connector code message => invalid (.stripe code) message
  | .other thrown => .other thrown

/-- The rejection of a body that does not parse, `service.mjs:215–220`. -/
def parseRejection : ParseError → Rejection
  | .strictJson error => invalid (.strictJson error.code) error.message
  | .typeError message => .other (.typeError message)
  | .fuel => .other (.typeError [])

/-- The part of `ingestStripeWebhook` before its first file access, `service.mjs:198–221`. -/
def receiveWebhook (host : Host) (relay : RelayService) (w : WebhookRequest) :
    Except Rejection ReceivedWebhook :=
  match relay.stripeWebhookSecret.filter (· ≠ []) with
  | none => .error (.service .stripeWebhookSecretNotConfigured
      (js "Stripe webhook ingestion is not configured.") 503)
  | some secret => do
    let verification ← (verifyStripeWebhookSignature host w.rawBody w.signatureHeader secret
      w.nowAtVerification).mapError connectorRejection
    let stripeEvent ←
      (parseJsonStrict ((w.rawBody.decoded host).getD [])).mapError parseRejection
    let recordedAt ← throwing (toIsoString w.nowAtRecording)
    let observation ← (normalizeStripeRefundEvent host stripeEvent
      { relayIssuerRef := relay.issuerId, recordedAt,
        signatureVerification := some verification }).mapError connectorRejection
    .ok
      { stripeEvent
        observation
        refundId := stringOf
          (get (get (get (some stripeEvent) (js "data")) (js "object")) (js "id")) }

/-- The id of the upstream event, when it is a string. -/
def ReceivedWebhook.eventId (r : ReceivedWebhook) : Option JsString :=
  match get (some r.stripeEvent) (js "id") with
  | some (.str id) => some id
  | _ => none

/-- `previous.metadata.seen_upstream_event_ids.includes(stripeEvent.id)`. -/
def ReceivedWebhook.isDuplicate (r : ReceivedWebhook) (previous : Metadata) : Bool :=
  match r.eventId with
  | some id => id ∈ previous.seenUpstreamEventIds
  | none => false

/-- The new events, each with the digest of the event before it as its parent,
`service.mjs:225–233`. -/
def linkEvents (host : Host) : Option Json → List Members → Except JsString (List Members)
  | _, [] => .ok []
  | parentDigest, event :: rest => do
    let parents := match parentDigest with
      | some digest => if truthy (some digest) then [digest] else []
      | none => []
    let linked ← withObjectDigest host.toRuntime
      (setMember event (js "parent_event_digests") (.arr parents))
    let more ← linkEvents host (member linked (js "object_digest")) rest
    .ok (linked :: more)

/-- The extension of an appended revision, `service.mjs:245–257`. -/
def revisionExtension (previous : Metadata) (r : ReceivedWebhook) : Members :=
  let own (name : String) : Option Json := get (some r.stripeEvent) (js name)
  relayExtension [(js "revision", natNumber (previous.revision + 1)),
    (js "ruleset", .str previous.ruleset), (js "correlations", .obj previous.correlations),
    (js "appended_upstream_event", .obj ([(js "provider", .str (js "stripe"))] ++
      ((own "id").map fun id ↦ (js "event_id", id)).toList ++
      ((own "type").map fun type ↦ (js "event_type", type)).toList ++
      [(js "signature_verified", .bool true)]))]

/-- The members of a bundle with the given names, as text. -/
def idText (object : Members) (name : String) : JsString := stringOf (member object (js name))

/-- What `safeId` throws for a value that is no string. -/
def notHashable : Rejection :=
  .other (.typeError (js "The data argument must be of type string."))

/-- The bundle of the next revision without the proofs of the webhook, `service.mjs:234–259`. -/
def unsignedRevision (host : Host) (actionId : JsString) (previous : Snapshot)
    (r : ReceivedWebhook) (newEvents : List Members) (timestamp : JsString)
    (predecessor : Json) : Members :=
  let s := sectionsOf (membersOf (some previous.bundle))
  createEvidenceBundle
    { bundleId := bundleIdOf host actionId (previous.metadata.revision + 1)
      actionId
      createdAt := timestamp
      issuers := s.issuers
      events := s.events ++ newEvents.map .obj
      evidence := s.evidence ++ [.obj r.observation.evidence]
      relationships := s.relationships ++ r.observation.relationships.map .obj
      predecessorBundleDigests := [predecessor]
      extensions := revisionExtension previous.metadata r
      proofs := s.proofs }

/-- The digest of the last event of a bundle, `service.mjs:225`. -/
def lastEventDigest (bundle : Json) : Option Json :=
  match get ((sectionsOf (membersOf (some bundle))).events.getLast?) (js "object_digest") with
  | some .null => none
  | digest => digest

/-- The part of `ingestStripeWebhook` between reading the action and appending,
`service.mjs:225–266`. -/
def prepareRevision (host : Host) (relay : RelayService) (w : WebhookRequest) (r : ReceivedWebhook)
    (actionId : JsString) (previous : Snapshot) : Except Rejection NewRevision := do
  let newEvents ← digesting
    (linkEvents host (lastEventDigest previous.bundle) r.observation.events)
  let timestamp ← throwing (toIsoString w.nowAtRevision)
  let predecessor ← digesting
    (calculatePayloadDigest host.toRuntime (membersOf (some previous.bundle)))
  let unsigned := unsignedRevision host actionId previous r newEvents timestamp predecessor
  match r.eventId with
  | none => .error notHashable
  | some eventId =>
    let bundle ← throwing (signTargets host relay unsigned
      (targetOf (js "EVIDENCE_ITEM") (idText r.observation.evidence "evidence_id") ::
        newEvents.map fun event ↦ targetOf (js "OUTCOME_EVENT") (idText event "event_id"))
      timestamp (js "tpp_stripe_" ++ safeId host eventId))
    let current ← throwing
      (currentSummary host bundle previous.metadata.ruleset w.generatedAt)
    .ok { actionId, bundle, current, upstreamEventId := some eventId }

/-- What `ingestStripeWebhook` resolves to. -/
inductive WebhookResponse where
  | duplicate (existing : Snapshot)
  | appended (stored : Appended) (packet : OutcomePacket)

/-- The rejection of a refund without an action, `service.mjs:223`. -/
def refundNotLinked (refundId : JsString) : Rejection :=
  .service .stripeRefundNotLinked
    (js "No action is linked to Stripe refund " ++ refundId ++ js ".") 404

/-- The action of a refund, `service.mjs:222–223`. -/
def linkedAction (refundId : JsString) (value : Option IndexValue) :
    Except Rejection IndexValue :=
  match value with
  | some (.actionId id) => if id = [] then .error (refundNotLinked refundId) else .ok (.actionId id)
  | some .inherited => .ok .inherited
  | none => .error (refundNotLinked refundId)

/-- `ingestStripeWebhook`, `service.mjs:198–270`. -/
def ingestStripeWebhook (host : Host) (relay : RelayService) (w : WebhookRequest) :
    StoreCall WebhookResponse := do
  let r ← Call.ofExcept (receiveWebhook host relay w)
  let actionId ← Call.ofExcept
    (linkedAction r.refundId (← findByStripeRefundId r.refundId))
  let previous ← getAction host actionId
  if r.isDuplicate previous.metadata then return .duplicate previous
  else
    let revision ← Call.ofExcept (prepareRevision host relay w r actionId.text previous)
    let appended ← appendRevision host revision
    let packet ← Call.ofExcept
      (throwing (packetOf host revision.bundle previous.metadata.ruleset w.generatedAt))
    return .appended appended packet

end TimeProofs.Relay
