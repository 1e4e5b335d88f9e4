import TimeProofs.Core.Plain
import TimeProofs.Relay.Atomicity

/-!
# What the service prepares

The bundles that the service hands to its store: that of a new action, and that of a revision,
which extends every section of the revision before it.
-/

namespace TimeProofs.Relay

open TimeProofs.Base TimeProofs.Json TimeProofs.Core TimeProofs.VerdictEngine
  TimeProofs.StripeConnector

/-- The id of a bundle. -/
def bundleId (bundle : Members) : Option Json := get (member bundle (js "payload")) (js "bundle_id")

/-- What a summary takes from its bundle. -/
theorem currentSummary_eq_ok {host : Host} {bundle : Members} {ruleset generatedAt : JsString}
    {current : CurrentSummary} (h : currentSummary host bundle ruleset generatedAt = .ok current) :
    ∃ verification evaluation, verifyBundle host.toRuntime (.obj bundle) = .ok verification ∧
      evaluateBundle host.toRuntime (.obj bundle) ruleset = .ok evaluation ∧
      current.bundleId = bundleId bundle ∧
      current.payloadDigest = verification.payloadDigest ∧
      current.structuralStatus = verification.status ∧ current.verdict = evaluation.verdict := by
  obtain ⟨packet, hpacket, hcurrent⟩ := bind_eq_ok_iff.mp h
  obtain rfl := Except.ok.inj hcurrent
  obtain ⟨verification, hverification, hpacket⟩ := bind_eq_ok_iff.mp hpacket
  obtain ⟨evaluation, hevaluation, hpacket⟩ := bind_eq_ok_iff.mp hpacket
  obtain ⟨events, -, rfl⟩ := map_eq_ok_iff.mp hpacket
  exact ⟨verification, evaluation, hverification, hevaluation, rfl, rfl, rfl, rfl⟩

/-- What `signTargets` asks for the target at an index. -/
def signingRequest (relay : RelayService) (bundle : Members) (createdAt proofIds : JsString)
    (index : Nat) (target : Members) : ProofRequest where
  bundle := bundle
  target := target
  issuerRef := relay.issuerId
  keyId := relay.key.keyId
  privateKeyPem := relay.key.privateKeyPem
  proofId := proofIds ++ js "_" ++ decimal (index + 1)
  createdAt := createdAt

/-- The proofs that `signTargets` makes, one for each target. -/
structure Signs (host : Host) (relay : RelayService) (bundle : Members) (targets : List Members)
    (createdAt proofIds : JsString) (proofs : List Json) : Prop where
  length_eq : proofs.length = targets.length
  created : ∀ (i : Nat) target, targets[i]? = some target → ∃ proof, proofs[i]? = some proof ∧
    createSignatureProof host.toRuntime (signingRequest relay bundle createdAt proofIds i target) =
      .ok proof

section

variable {host : Host} {relay : RelayService} {bundle : Members} {targets : List Members}
  {createdAt proofIds : JsString} {proofs : List Json}

theorem signTargets_eq_ok {signed : Members}
    (h : signTargets host relay bundle targets createdAt proofIds = .ok signed) :
    ∃ proofs, signed = withProofs bundle proofs ∧
      Signs host relay bundle targets createdAt proofIds proofs := by
  obtain ⟨proofs, hproofs, hsigned⟩ := bind_eq_ok_iff.mp h
  refine ⟨proofs, (Except.ok.inj hsigned).symm, ?_⟩
  rw [collect_eq_ok] at hproofs
  constructor
  · have hlength := congrArg List.length hproofs
    rw [List.length_mapIdx, List.length_map] at hlength
    exact hlength.symm
  · intro i target htarget
    have hat : (targets.mapIdx fun index target ↦ createSignatureProof host.toRuntime
        (signingRequest relay bundle createdAt proofIds index target))[i]? =
          (proofs.map Except.ok)[i]? := congrArg (fun l ↦ l[i]?) hproofs
    rw [List.getElem?_mapIdx, htarget, List.getElem?_map] at hat
    obtain ⟨proof, hproof, heq⟩ := Option.map_eq_some_iff.mp hat.symm
    exact ⟨proof, hproof, heq.symm⟩

/-- Every target has a proof. -/
theorem Signs.exists_proof (h : Signs host relay bundle targets createdAt proofIds proofs)
    {target : Members} (htarget : target ∈ targets) :
    ∃ i, ∃ proof ∈ proofs, createSignatureProof host.toRuntime
      (signingRequest relay bundle createdAt proofIds i target) = .ok proof := by
  obtain ⟨i, hi⟩ := List.mem_iff_getElem?.mp htarget
  obtain ⟨proof, hproof, hcreated⟩ := h.created i target hi
  exact ⟨i, proof, List.mem_iff_getElem?.mpr ⟨i, hproof⟩, hcreated⟩

/-- Every proof is one of a target. -/
theorem Signs.exists_target (h : Signs host relay bundle targets createdAt proofIds proofs)
    {proof : Json} (hproof : proof ∈ proofs) :
    ∃ i, ∃ target ∈ targets, createSignatureProof host.toRuntime
      (signingRequest relay bundle createdAt proofIds i target) = .ok proof := by
  obtain ⟨i, hi⟩ := List.mem_iff_getElem?.mp hproof
  have hlt : i < targets.length := h.length_eq ▸ (List.getElem?_eq_some_iff.mp hi).1
  obtain ⟨proof', hproof', hcreated⟩ := h.created i _ (List.getElem?_eq_getElem hlt)
  rw [hi] at hproof'
  cases hproof'
  exact ⟨i, _, List.getElem_mem hlt, hcreated⟩

theorem plain_targetOf (targetType targetId : JsString) :
    Plain (.obj (targetOf targetType targetId)) := by
  rw [plain_obj_iff, targetOf]
  exact List.forall_mem_cons.mpr ⟨plain_str _, List.forall_mem_singleton.mpr (plain_str _)⟩

theorem Signs.plain (h : Signs host relay bundle targets createdAt proofIds proofs)
    (hbundle : Plain (.obj bundle)) (htargets : ∀ target ∈ targets, Plain (.obj target)) :
    ∀ proof ∈ proofs, Plain proof := by
  intro proof hproof
  obtain ⟨i, target, htarget, hcreated⟩ := h.exists_target hproof
  let request := signingRequest relay bundle createdAt proofIds i target
  have hrequest : Plain (.obj request.bundle) := hbundle
  exact plain_createSignatureProof hrequest (htargets target htarget) hcreated

theorem plain_withProofs (hbundle : Plain (.obj bundle)) (hproofs : ∀ proof ∈ proofs, Plain proof) :
    Plain (.obj (withProofs bundle proofs)) := by
  apply plain_setMember hbundle
  rw [plain_arr_iff, List.forall_mem_append]
  exact ⟨Plain.items fun _ ↦ hbundle.member, hproofs⟩

end

/-- What the preparation of an action computes. -/
structure ActionParts where
  input : ActionInput
  timestamp : JsString
  evidence : Members
  event : Members
  relationship : Members
  proofs : List Json

/-- The suffix of the ids of an action's objects. -/
def ActionParts.suffix (parts : ActionParts) (host : Host) : JsString :=
  safeId host parts.input.actionId

/-- The bundle of a new action without its proofs. -/
def ActionParts.unsigned (parts : ActionParts) (host : Host) (relay : RelayService) : Members :=
  createEvidenceBundle
    { bundleId := bundleIdOf host parts.input.actionId 1
      actionId := parts.input.actionId
      createdAt := parts.timestamp
      issuers := [.obj (relayIssuer relay)]
      events := [.obj parts.event]
      evidence := [.obj parts.evidence]
      relationships := [.obj parts.relationship]
      extensions := relayExtension [(js "revision", natNumber 1),
        (js "ruleset", .str refundRuleset), (js "correlations", .obj parts.input.correlations)] }

/-- An action as the service prepares it. -/
structure PreparedAction (host : Host) (relay : RelayService) (request : ActionRequest)
    (a : NewAction) (parts : ActionParts) : Prop where
  checked : checkAction request.input = .ok parts.input
  now : toIsoString request.now = .ok parts.timestamp
  evidence : claimEvidence host relay parts.input (parts.suffix host) = .ok parts.evidence
  event : claimEvent host relay parts.input (parts.suffix host) parts.timestamp = .ok parts.event
  relationship : claimRelationship host (parts.suffix host) = .ok parts.relationship
  signs : Signs host relay (parts.unsigned host relay)
    [targetOf (js "EVIDENCE_ITEM") (js "tpev_claim_" ++ parts.suffix host),
      targetOf (js "OUTCOME_EVENT") (js "tpe_claim_" ++ parts.suffix host)]
    parts.timestamp (js "tpp_claim_" ++ parts.suffix host) parts.proofs
  bundle : a.bundle = withProofs (parts.unsigned host relay) parts.proofs
  current : currentSummary host a.bundle refundRuleset request.generatedAt = .ok a.current
  actionId : a.actionId = parts.input.actionId
  ruleset : a.ruleset = refundRuleset

section

variable {host : Host} {relay : RelayService} {request : ActionRequest} {a : NewAction}
  {parts : ActionParts}

theorem prepareAction_prepared (h : prepareAction host relay request = .ok a) :
    ∃ parts, PreparedAction host relay request a parts := by
  unfold prepareAction at h
  simp only [bind_eq_ok_iff, throwing_eq_ok, digesting_eq_ok] at h
  obtain ⟨input, hinput, timestamp, htimestamp, evidence, hevidence, event, hevent, relationship,
    hrelationship, bundle, hbundle, current, hcurrent, h⟩ := h
  obtain rfl := Except.ok.inj h
  obtain ⟨proofs, rfl, hsigns⟩ := signTargets_eq_ok hbundle
  exact ⟨⟨input, timestamp, evidence, event, relationship, proofs⟩,
    { checked := hinput
      now := htimestamp
      evidence := hevidence
      event := hevent
      relationship := hrelationship
      signs := hsigns
      bundle := rfl
      current := hcurrent
      actionId := rfl
      ruleset := rfl }⟩

/-- The bundle of a new action is stored as it is. -/
theorem PreparedAction.plain (h : PreparedAction host relay request a parts) :
    Plain (.obj a.bundle) := by
  have hunsigned : Plain (.obj (parts.unsigned host relay)) := plain_createEvidenceBundle _
  rw [h.bundle]
  apply plain_withProofs hunsigned
  apply h.signs.plain hunsigned
  simp only [List.forall_mem_cons, plain_targetOf, true_and]
  exact fun target htarget ↦ (List.not_mem_nil htarget).elim

theorem plain_relayIssuer (relay : RelayService) : Plain (.obj (relayIssuer relay)) := by
  rw [plain_obj_iff, relayIssuer, createIssuerDescriptor]
  simp only [List.forall_mem_cons, plain_str, plain_clone, true_and]
  exact fun m hm ↦ (List.not_mem_nil hm).elim

theorem plain_claimEvidence {input : ActionInput} {suffix : JsString} {evidence : Members}
    (h : claimEvidence host relay input suffix = .ok evidence) : Plain (.obj evidence) := by
  obtain ⟨contentDigest, -, hevidence⟩ := bind_eq_ok_iff.mp h
  exact plain_createEvidenceItem hevidence

theorem plain_claimEvent {input : ActionInput} {suffix timestamp : JsString} {event : Members}
    (h : claimEvent host relay input suffix timestamp = .ok event) : Plain (.obj event) := by
  rw [claimEvent] at h
  exact plain_createOutcomeEvent h

theorem plain_claimRelationship {suffix : JsString} {relationship : Members}
    (h : claimRelationship host suffix = .ok relationship) : Plain (.obj relationship) := by
  rw [claimRelationship] at h
  exact plain_createRelationship h

/-- The sections of the bundle of a new action. -/
theorem PreparedAction.sections (h : PreparedAction host relay request a parts) :
    sectionsOf a.bundle =
      { issuers := [.obj (relayIssuer relay)]
        events := [.obj parts.event]
        evidence := [.obj parts.evidence]
        relationships := [.obj parts.relationship]
        predecessors := []
        proofs := parts.proofs } := by
  have hissuer := (plain_relayIssuer relay).clone_eq
  have hevent := (plain_claimEvent h.event).clone_eq
  have hevidence := (plain_claimEvidence h.evidence).clone_eq
  have hrelationship := (plain_claimRelationship h.relationship).clone_eq
  rw [h.bundle, sectionsOf_withProofs, ActionParts.unsigned, sectionsOf_createEvidenceBundle]
  simp only [List.map_cons, List.map_nil, List.nil_append, hissuer, hevent, hevidence,
    hrelationship]

end

theorem bundleId_createEvidenceBundle (o : BundleOptions) :
    bundleId (createEvidenceBundle o) = some (.str o.bundleId) := rfl

theorem PreparedAction.bundleId_eq {host : Host} {relay : RelayService} {request : ActionRequest}
    {a : NewAction} {parts : ActionParts} (h : PreparedAction host relay request a parts) :
    bundleId a.bundle = some (.str (bundleIdOf host a.actionId 1)) := by
  rw [bundleId, h.bundle, payload_withProofs, h.actionId]
  exact bundleId_createEvidenceBundle _

/-- What a webhook that passed its checks is made of. -/
structure WebhookParts where
  verification : SignatureVerification
  recordedAt : JsString
  id : JsString
  occurredAt : JsString

/-- The options of a received webhook. -/
def WebhookParts.options (parts : WebhookParts) (relay : RelayService) : NormalizeOptions where
  relayIssuerRef := relay.issuerId
  recordedAt := parts.recordedAt
  signatureVerification := some parts.verification

/-- The id of the evidence of a webhook. -/
def WebhookParts.evidenceId (parts : WebhookParts) : JsString := js "tpev_stripe_" ++ parts.id

/-- A webhook as the service receives it. -/
structure Received (host : Host) (relay : RelayService) (w : WebhookRequest) (r : ReceivedWebhook)
    (parts : WebhookParts) : Prop where
  now : toIsoString w.nowAtRecording = .ok parts.recordedAt
  descriptors : eventDescriptors r.stripeEvent ≠ []
  id : normalizedIdOf (if isNullish (get (some r.stripeEvent) (js "id"))
    then .str (js "evt_" ++ r.refundId) else orNull (get (some r.stripeEvent) (js "id"))) =
      .ok parts.id
  occurredAt : isoFromUnix (get (some r.stripeEvent) (js "created")) parts.recordedAt =
    .ok parts.occurredAt
  evidence : ∃ eventIdText, stripeEvidence host r.stripeEvent (parts.options relay)
    parts.evidenceId eventIdText ((eventDescriptors r.stripeEvent).map Descriptor.eventType) =
      .ok r.observation.evidence
  events : collect ((eventDescriptors r.stripeEvent).map (stripeOutcomeEvent host r.stripeEvent
    (parts.options relay) r.refundId parts.id parts.evidenceId parts.occurredAt)) =
      .ok r.observation.events
  relationships : collect ((eventDescriptors r.stripeEvent).mapIdx
    (stripeRelationship host parts.id parts.evidenceId)) = .ok r.observation.relationships

section

variable {host : Host} {relay : RelayService} {w : WebhookRequest} {r : ReceivedWebhook}

theorem receiveWebhook_received (h : receiveWebhook host relay w = .ok r) :
    ∃ parts, Received host relay w r parts := by
  unfold receiveWebhook at h
  split at h
  · cases h
  · simp only [bind_eq_ok_iff, mapError_eq_ok, throwing_eq_ok] at h
    obtain ⟨verification, -, stripeEvent, -, recordedAt, hnow, observation, hobservation, h⟩ := h
    obtain rfl := Except.ok.inj h
    unfold normalizeStripeRefundEvent at hobservation
    split at hobservation
    · cases hobservation
    · dsimp only at hobservation
      split at hobservation
      · next refundId hobject hrefundId =>
        split at hobservation
        · split at hobservation
          · cases hobservation
          · cases hobservation
          · obtain ⟨status, -, hfail⟩ := bind_eq_ok_iff.mp hobservation
            cases hfail
        · next hdescriptors =>
          simp only [mapError_eq_ok, bind_eq_ok_iff] at hobservation
          obtain ⟨occurredAt, hoccurredAt, id, hid, evidence, hevidence, events, hevents,
            relationships, hrelationships, hobservation⟩ := hobservation
          obtain rfl := Except.ok.inj hobservation
          have hrefund : stringOf (get (get (get (some stripeEvent) (js "data")) (js "object"))
              (js "id")) = refundId := by rw [hrefundId]; rfl
          exact ⟨⟨verification, recordedAt, id, occurredAt⟩,
            { now := hnow
              descriptors := hdescriptors
              id := hrefund.symm ▸ hid
              occurredAt := hoccurredAt
              evidence := ⟨_, hevidence⟩
              events := hrefund.symm ▸ hevents
              relationships := hrelationships }⟩
      · cases hobservation

variable {parts : WebhookParts}

theorem Received.plain_evidence (h : Received host relay w r parts) :
    Plain (.obj r.observation.evidence) := by
  obtain ⟨eventIdText, hevidence⟩ := h.evidence
  unfold stripeEvidence at hevidence
  simp only [bind_eq_ok_iff, mapError_eq_ok] at hevidence
  obtain ⟨contentDigest, -, authentication, -, hitem⟩ := hevidence
  exact plain_createEvidenceItem hitem

theorem Received.plain_relationships (h : Received host relay w r parts) :
    ∀ relationship ∈ r.observation.relationships, Plain (.obj relationship) := by
  intro relationship hmem
  have hall := collect_eq_ok.mp h.relationships
  have hok : Except.ok relationship ∈ (eventDescriptors r.stripeEvent).mapIdx
      (stripeRelationship host parts.id parts.evidenceId) := by
    rw [hall]
    exact List.mem_map_of_mem hmem
  obtain ⟨i, hi, heq⟩ := List.mem_mapIdx.mp hok
  rw [stripeRelationship] at heq
  exact plain_createRelationship heq

end

/-- What the preparation of a revision computes. -/
structure RevisionParts where
  newEvents : List Members
  timestamp : JsString
  predecessor : Json
  eventId : JsString
  proofs : List Json

/-- The bundle of a revision without the proofs of the webhook. -/
def RevisionParts.unsigned (parts : RevisionParts) (host : Host) (actionId : JsString)
    (previous : Snapshot) (r : ReceivedWebhook) : Members :=
  unsignedRevision host actionId previous r parts.newEvents parts.timestamp parts.predecessor

/-- The members of the bundle that a revision extends. -/
def Snapshot.members (s : Snapshot) : Members := membersOf (some s.bundle)

/-- A revision as the service prepares it. -/
structure PreparedRevision (host : Host) (relay : RelayService) (w : WebhookRequest)
    (r : ReceivedWebhook) (previous : Snapshot) (revision : NewRevision) (parts : RevisionParts) :
    Prop where
  newEvents : linkEvents host (lastEventDigest previous.bundle) r.observation.events =
    .ok parts.newEvents
  now : toIsoString w.nowAtRevision = .ok parts.timestamp
  predecessor : calculatePayloadDigest host.toRuntime previous.members = .ok parts.predecessor
  eventId : r.eventId = some parts.eventId
  signs : Signs host relay (parts.unsigned host revision.actionId previous r)
    (targetOf (js "EVIDENCE_ITEM") (idText r.observation.evidence "evidence_id") ::
      parts.newEvents.map fun event ↦ targetOf (js "OUTCOME_EVENT") (idText event "event_id"))
    parts.timestamp (js "tpp_stripe_" ++ safeId host parts.eventId) parts.proofs
  bundle : revision.bundle =
    withProofs (parts.unsigned host revision.actionId previous r) parts.proofs
  current : currentSummary host revision.bundle previous.metadata.ruleset w.generatedAt =
    .ok revision.current
  upstreamEventId : revision.upstreamEventId = some parts.eventId

section

variable {host : Host} {relay : RelayService} {w : WebhookRequest} {r : ReceivedWebhook}
  {previous : Snapshot} {revision : NewRevision}

theorem prepareRevision_prepared {actionId : JsString}
    (h : prepareRevision host relay w r actionId previous = .ok revision) :
    revision.actionId = actionId ∧
      ∃ parts, PreparedRevision host relay w r previous revision parts := by
  unfold prepareRevision at h
  simp only [bind_eq_ok_iff, throwing_eq_ok, digesting_eq_ok] at h
  obtain ⟨newEvents, hnewEvents, timestamp, hnow, predecessor, hpredecessor, h⟩ := h
  split at h
  · cases h
  · next eventId heventId =>
    simp only [bind_eq_ok_iff, throwing_eq_ok] at h
    obtain ⟨bundle, hbundle, current, hcurrent, h⟩ := h
    obtain rfl := Except.ok.inj h
    obtain ⟨proofs, rfl, hsigns⟩ := signTargets_eq_ok hbundle
    exact ⟨rfl, ⟨newEvents, timestamp, predecessor, eventId, proofs⟩,
      { newEvents := hnewEvents
        now := hnow
        predecessor := hpredecessor
        eventId := heventId
        signs := hsigns
        bundle := rfl
        current := hcurrent
        upstreamEventId := rfl }⟩

theorem plain_linkEvents {parent : Option Json} {events linked : List Members}
    (h : linkEvents host parent events = .ok linked) : ∀ event ∈ linked, Plain (.obj event) := by
  induction events generalizing parent linked with
  | nil =>
    cases h
    exact fun event hevent ↦ (List.not_mem_nil hevent).elim
  | cons event rest ih =>
    unfold linkEvents at h
    obtain ⟨first, hfirst, h⟩ := bind_eq_ok_iff.mp h
    obtain ⟨more, hmore, h⟩ := bind_eq_ok_iff.mp h
    obtain rfl := Except.ok.inj h
    exact List.forall_mem_cons.mpr ⟨plain_withObjectDigest hfirst, ih hmore⟩

variable {parts : RevisionParts}

/-- The bundle of a revision is stored as it is. -/
theorem PreparedRevision.plain (h : PreparedRevision host relay w r previous revision parts) :
    Plain (.obj revision.bundle) := by
  have hunsigned : Plain (.obj (parts.unsigned host revision.actionId previous r)) :=
    plain_createEvidenceBundle _
  rw [h.bundle]
  apply plain_withProofs hunsigned
  apply h.signs.plain hunsigned
  rw [List.forall_mem_cons, List.forall_mem_map]
  exact ⟨plain_targetOf _ _, fun event _ ↦ plain_targetOf _ _⟩

theorem PreparedRevision.bundleId_eq
    (h : PreparedRevision host relay w r previous revision parts) : bundleId revision.bundle =
      some (.str (bundleIdOf host revision.actionId (previous.metadata.revision + 1))) := by
  rw [bundleId, h.bundle, payload_withProofs]
  exact bundleId_createEvidenceBundle _

theorem map_clone_obj {events : List Members} (h : ∀ event ∈ events, Plain (.obj event)) :
    (events.map Json.obj).map clone = events.map Json.obj :=
  map_clone_of_plain (List.forall_mem_map.mpr h)

/-- A revision extends every section of the revision before it. -/
theorem PreparedRevision.sections (h : PreparedRevision host relay w r previous revision parts)
    {webhook : WebhookParts} (hreceived : Received host relay w r webhook)
    (hprevious : Plain previous.bundle) :
    sectionsOf revision.bundle =
      { issuers := (sectionsOf previous.members).issuers
        events := (sectionsOf previous.members).events ++ parts.newEvents.map .obj
        evidence := (sectionsOf previous.members).evidence ++ [.obj r.observation.evidence]
        relationships :=
          (sectionsOf previous.members).relationships ++ r.observation.relationships.map .obj
        predecessors := [parts.predecessor]
        proofs := (sectionsOf previous.members).proofs ++ parts.proofs } := by
  have hmembers : Plain (.obj previous.members) := by
    rw [Snapshot.members]
    cases hbundle : previous.bundle with
    | obj ms => exact hbundle ▸ hprevious
    | _ => exact plain_obj_iff.mpr fun m hm ↦ (List.not_mem_nil hm).elim
  have hevidence := hreceived.plain_evidence.clone_eq
  have hpredecessor := (plain_digestValue h.predecessor).clone_eq
  have hissuers : (sectionsOf previous.members).issuers.map clone = _ :=
    map_clone_of_plain (hmembers.collection _)
  have hevents : (sectionsOf previous.members).events.map clone = _ :=
    map_clone_of_plain (hmembers.collection _)
  have hitems : (sectionsOf previous.members).evidence.map clone = _ :=
    map_clone_of_plain (hmembers.collection _)
  have hrelationships : (sectionsOf previous.members).relationships.map clone = _ :=
    map_clone_of_plain (hmembers.collection _)
  have hproofs : (sectionsOf previous.members).proofs.map clone = _ :=
    map_clone_of_plain (Plain.items fun _ ↦ hmembers.member)
  have hbefore : membersOf (some previous.bundle) = previous.members := rfl
  rw [h.bundle, sectionsOf_withProofs, RevisionParts.unsigned, unsignedRevision,
    sectionsOf_createEvidenceBundle]
  simp only [hbefore, List.map_append, List.map_cons, List.map_nil, hissuers, hevents,
    hitems, hrelationships, hproofs, hevidence, hpredecessor, map_clone_obj
      (plain_linkEvents h.newEvents), map_clone_obj hreceived.plain_relationships]

end

end TimeProofs.Relay
