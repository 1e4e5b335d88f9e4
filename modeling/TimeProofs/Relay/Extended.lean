import TimeProofs.Relay.Ingested

/-!
# Extended revisions

When the revision that a webhook appends is accepted: the revision before it is, the times of the
webhook are in order and its ids are new.
-/

namespace TimeProofs.Relay

open TimeProofs.Base TimeProofs.Json TimeProofs.Core TimeProofs.VerdictEngine
  TimeProofs.StripeConnector

/-- A reading of the clock whose year has four digits and that a `Date` reads back. -/
def FourDigitYear (now : Int) : Prop := 100 ≤ (utcFields now).year ∧ (utcFields now).year ≤ 9999

/-- A webhook that the verifier accepts after the given revision. -/
structure ReceivedWebhook.Fits (r : ReceivedWebhook) (host : Host) (w : WebhookRequest)
    (previous : Snapshot) : Prop where
  recordingClock : ∀ now, w.nowAtRecording = some now → FourDigitYear now
  revisionClock : ∀ now, w.nowAtRevision = some now → FourDigitYear now
  providerTime : ∀ t now, r.providerTime = some t → w.nowAtRecording = some now →
    FourDigitYear t ∧ t ≤ now
  refundId : r.refundId ≠ []
  eventId : r.eventId ≠ some []
  /-- The ids that are made from the id of the event differ from those of the events before it. -/
  fresh : ∀ id, r.eventId = some id → ∀ seen ∈ previous.metadata.seenUpstreamEventIds,
    normalizedId seen ≠ normalizedId id ∧ safeId host seen ≠ safeId host id
  /-- No event has the digest of its parent. -/
  parents : ∀ newEvents,
    linkEvents host (lastEventDigest previous.bundle) r.observation.events = .ok newEvents →
      ∀ event ∈ newEvents, ∀ parent ∈ itemsOf (get (some (.obj event)) (js "parent_event_digests")),
        get (some parent) (js "value") ≠ declaredValue (.obj event)

/-- A bundle of the relay that is valid, made from a claim and the given upstream events. -/
structure ValidBundle (host : Host) (relay : RelayService) (seen : List JsString)
    (bundle : Members) : Prop where
  plain : Plain (.obj bundle)
  accepted : Accepted host.toRuntime bundle
  issuers : (sectionsOf bundle).issuers = [.obj (relayIssuer relay)]
  named : ∀ proof ∈ (sectionsOf bundle).proofs, NamesObject (get (some proof) (js "target"))
  objectIds : ∀ id ∈ (sectionsOf bundle).objectIds, RelayId (seen.map normalizedId) id
  proofIds : ∀ id ∈ idsOf (js "proof_id") (sectionsOf bundle).proofs,
    RelayId (seen.map (safeId host)) id
  events : (sectionsOf bundle).events ≠ []
  evidence : (sectionsOf bundle).evidence ≠ []
  proofs : (sectionsOf bundle).proofs ≠ []

theorem ValidBundle.mono {host : Host} {relay : RelayService} {seen seen' : List JsString}
    {bundle : Members} (h : ValidBundle host relay seen bundle) (hsubset : seen ⊆ seen') :
    ValidBundle host relay seen' bundle :=
  { h with
    objectIds := fun id hid ↦ (h.objectIds id hid).mono (List.map_subset _ hsubset)
    proofIds := fun id hid ↦ (h.proofIds id hid).mono (List.map_subset _ hsubset) }

/-- The texts of metadata that a revision takes over. -/
structure Metadata.Encodes (m : Metadata) : Prop where
  ruleset : wellFormed m.ruleset = true
  correlations : (Json.obj m.correlations).WellFormedText

/-- A revision that webhooks can extend. -/
structure Extendable (host : Host) (relay : RelayService) (s : Snapshot) : Prop
    extends ValidBundle host relay s.metadata.seenUpstreamEventIds s.members where
  bundle_eq : s.bundle = .obj s.members
  encodes : s.metadata.Encodes

theorem Extendable.plain_bundle {host : Host} {relay : RelayService} {s : Snapshot}
    (h : Extendable host relay s) : Plain s.bundle := h.bundle_eq ▸ h.plain

section

variable {host : Host} {relay : RelayService} {w : WebhookRequest} {r : ReceivedWebhook}
  {previous : Snapshot}

theorem notAfter_isoText_of_le {t now : Int} (hyear : FourDigitYear t) (hle : t ≤ now) :
    NotAfter (.str (isoText t)) now := by
  have hread := readTimestamp_isoText (t := t) (by have := hyear.1; omega) hyear.2
  refine ⟨_, _, rfl, (validTimestampText_isoText t).mpr hyear, hread, ?_⟩
  rw [parsedTime_isoText (by have := hyear.1; omega) hyear.2 hread]
  exact hle

/-- The times of a webhook that fits are those that the verifier asks for. -/
theorem ReceivedWebhook.Fits.timely (hfits : r.Fits host w previous) {webhook : WebhookParts}
    (h : Received host relay w r webhook) : webhook.Timely := by
  obtain ⟨now, hnow, hrecorded⟩ := toIsoString_eq_ok h.now
  have hclock := hfits.recordingClock now hnow
  have htime : NotAfter (.str webhook.occurredAt) now := by
    rcases h.occurredAt_eq with heq | ⟨t, ht, heq⟩
    · rw [heq, hrecorded]
      exact notAfter_isoText hclock
    · obtain ⟨hyear, hle⟩ := hfits.providerTime t now ht hnow
      rw [heq]
      exact notAfter_isoText_of_le hyear hle
  obtain ⟨hvalid, hafter⟩ := (notAfter_iff hclock).mpr htime
  rw [← hrecorded] at hafter
  refine ⟨?_, hvalid, hafter⟩
  rw [hrecorded]
  exact (validTimestampText_isoText now).mpr hclock

theorem lt_of_mem_padStart {n m : Nat} {c : CodeUnit} (h : c ∈ padStart n (decimal m)) :
    c.toNat < 0xD800 := by
  have hdigit : isDigit c = true := by
    rw [padStart, List.mem_append] at h
    rcases h with hzero | hdigit
    · rw [List.eq_of_mem_replicate hzero]
      decide
    · exact isDigit_of_mem_decimal hdigit
  apply toNat_isHexLower
  rw [isHexLower, hdigit, Bool.true_or]

theorem wellFormed_isoText (t : Int) : wellFormed (isoText t) = true := by
  apply wellFormed_of_forall
  intro c hc
  have hyear : ∀ c ∈ yearText (utcFields t).year, c.toNat < 0xD800 := by
    intro c hc
    unfold yearText at hc
    split at hc
    · exact lt_of_mem_padStart hc
    · split at hc
      all_goals
        rcases List.mem_cons.mp hc with rfl | hdigit
        · decide
        · exact lt_of_mem_padStart hdigit
  unfold isoText at hc
  simp only [List.mem_append, List.mem_singleton] at hc
  rcases hc with ((((((((((((hc | rfl) | hc) | rfl) | hc) | rfl) | hc) | rfl) | hc) | rfl) | hc) |
    rfl) | hc) | rfl
  all_goals first
    | exact hyear c hc
    | exact lt_of_mem_padStart hc
    | decide

/-- The texts of an accepted payload are well formed. -/
theorem wellFormedText_items {rt : Runtime} {bundle : Members} (h : Accepted rt bundle)
    (name : JsString) : ∀ v ∈ itemsOf (payloadMember bundle name), v.WellFormedText := by
  have hencodable := h.envelope.payloadDigest_iff.mp h.payloadDigest
  intro v hv
  unfold payloadMember at hv
  cases hget : member (membersOf (member bundle (js "payload"))) name with
  | none =>
    rw [hget] at hv
    cases hv
  | some w =>
    have hw := ((encodable_obj _).mp hencodable _ (mem_of_member_eq hget)).2
    rw [hget] at hv
    cases w with
    | arr items => exact wellFormedText_of_encodable ((encodable_arr items).mp hw v hv)
    | _ => cases hv

variable {revision : NewRevision} {parts : RevisionParts} {webhook : WebhookParts}

/-- The sections of a revision before the proofs of its webhook are added. -/
theorem PreparedRevision.sections_unsigned
    (h : PreparedRevision host relay w r previous revision parts)
    (hreceived : Received host relay w r webhook) (hprevious : Plain previous.bundle) :
    sectionsOf (parts.unsigned host revision.actionId previous r) =
      { issuers := (sectionsOf previous.members).issuers
        events := (sectionsOf previous.members).events ++ parts.newEvents.map .obj
        evidence := (sectionsOf previous.members).evidence ++ [.obj r.observation.evidence]
        relationships :=
          (sectionsOf previous.members).relationships ++ r.observation.relationships.map .obj
        predecessors := [parts.predecessor]
        proofs := (sectionsOf previous.members).proofs } := by
  have hsections := h.sections hreceived hprevious
  rw [h.bundle, sectionsOf_withProofs] at hsections
  generalize sectionsOf (parts.unsigned host revision.actionId previous r) = s at hsections ⊢
  cases s
  simp only [Sections.mk.injEq, List.append_cancel_right_eq] at hsections ⊢
  exact hsections

theorem PreparedRevision.extends_unsigned
    (h : PreparedRevision host relay w r previous revision parts)
    (hreceived : Received host relay w r webhook) (hprevious : Extendable host relay previous) :
    Extends previous.members (parts.unsigned host revision.actionId previous r)
      (parts.newEvents.map .obj) [.obj r.observation.evidence]
      (r.observation.relationships.map .obj) := by
  have hsections := h.sections_unsigned hreceived hprevious.plain_bundle
  have hpayload := hprevious.accepted.payload
  constructor
  case specVersion => exact hpayload.specVersion.symm
  case profile => exact hpayload.profile.symm
  all_goals rw [hsections]

/-- The digest that the first new event takes as its parent. -/
theorem Extendable.lastEvent (h : Extendable host relay previous) :
    ∃ cause ∈ (sectionsOf previous.members).events, ∃ digest,
      Plain cause ∧ get (some cause) (js "object_digest") = some digest ∧
        validDigest (some digest) = true ∧ lastEventDigest previous.bundle = some digest := by
  obtain ⟨cause, hlast⟩ : ∃ cause, (sectionsOf previous.members).events.getLast? = some cause :=
    ⟨_, List.getLast?_eq_some_getLast h.events⟩
  have hmem : cause ∈ (sectionsOf previous.members).events := List.mem_of_getLast? hlast
  have hok := h.accepted.events cause hmem
  obtain ⟨members, rfl⟩ : ∃ members, cause = .obj members := by
    obtain ⟨ms, hms, -⟩ := exactKeys_iff.mp hok.keys
    exact ⟨ms, Option.some.inj hms⟩
  have hvalid := hok.digest.valid
  rw [membersOf] at hvalid
  obtain ⟨hex, hdigest, -⟩ := validDigest_iff.mp hvalid
  obtain ⟨ms, hms, -⟩ := exactKeys_iff.mp hdigest.keys
  refine ⟨_, hmem, .obj ms, h.plain.collection _ _ hmem, hms, hms ▸ hvalid, ?_⟩
  unfold lastEventDigest
  have hsame : membersOf (some previous.bundle) = previous.members := rfl
  have hget : get (some (.obj members)) (js "object_digest") = some (.obj ms) := hms
  rw [hsame, hlast, hget]

theorem Received.parts_id (h : Received host relay w r webhook) {eventId : JsString}
    (hid : r.eventId = some eventId) : webhook.id = normalizedId eventId := by
  have hget : get (some r.stripeEvent) (js "id") = some (.str eventId) := by
    unfold ReceivedWebhook.eventId at hid
    split at hid
    · next id hget =>
      cases hid
      exact hget
    · cases hid
  have hparts := h.id
  rw [hget] at hparts
  exact (Except.ok.inj hparts).symm

/-- The objects of a webhook as they were built. -/
theorem Received.events_built (h : Received host relay w r webhook) :
    ∀ event ∈ r.observation.events, exactKeys (some (.obj event)) eventKeys = true ∧
      Plain (.obj event) ∧ get (some (.obj event)) (js "evidence_refs") =
        some (.arr [.str (webhookId webhook.id (js "tpev_", []))]) := by
  intro event hevent
  obtain ⟨d, hd, hmade⟩ := h.mem_events.mp hevent
  rw [stripeOutcomeEvent] at hmade
  have hbuilt := createOutcomeEvent_built hmade
  refine ⟨hbuilt.exactKeys rfl, plain_createOutcomeEvent hmade, ?_⟩
  refine (hbuilt.member_eq (by decide) rfl).trans ?_
  rw [clone_clone, clone_arr, map_clone_str]
  simp [webhookId, WebhookParts.evidenceId]
  rfl

/-- The new events of a revision are linked to those before them. -/
theorem PreparedRevision.linked (h : PreparedRevision host relay w r previous revision parts)
    (hreceived : Received host relay w r webhook) (hprevious : Extendable host relay previous) :
    idsOf (js "event_id") (parts.newEvents.map .obj) =
        idsOf (js "event_id") (r.observation.events.map .obj) ∧
      ∀ new ∈ parts.newEvents, LinkedTo host.toRuntime r.observation.events
        ((sectionsOf previous.members).events ++ parts.newEvents.map .obj) new := by
  obtain ⟨cause, hcause, digest, hplain, hdigest, hvalid, hlast⟩ := hprevious.lastEvent
  have hlink := h.newEvents
  rw [hlast] at hlink
  refine linkEvents_linked hlink (fun event hevent ↦ ?_) hcause hplain hdigest hvalid
  obtain ⟨hkeys, hevent, -⟩ := hreceived.events_built event hevent
  exact ⟨hkeys, hevent⟩

/-- The ids of the objects that a revision appends. -/
theorem PreparedRevision.appendedIds_eq
    (h : PreparedRevision host relay w r previous revision parts)
    (hreceived : Received host relay w r webhook) (hprevious : Extendable host relay previous) :
    appendedIds (parts.newEvents.map .obj) [.obj r.observation.evidence]
      (r.observation.relationships.map .obj) =
        (idParts (eventDescriptors r.stripeEvent)).map (webhookId webhook.id) := by
  have hevidence : idsOf (js "evidence_id") [.obj r.observation.evidence] =
      [webhookId webhook.id (js "tpev_", [])] :=
    List.filterMap_cons_some (stringId_eq_some.mpr hreceived.get_evidenceId)
  rw [appendedIds, (h.linked hreceived hprevious).1, hreceived.eventIds, hevidence,
    hreceived.relationshipIds, idParts, List.map_append, List.map_cons, List.map_map, List.map_map]
  rfl

/-- The relationships of a webhook join its evidence to its events. -/
theorem Received.relationship_built (h : Received host relay w r webhook) :
    ∀ relationship ∈ r.observation.relationships, ∃ d ∈ eventDescriptors r.stripeEvent,
      get (some (.obj relationship)) (js "from_ref") =
          some (.str (ObjectKind.evidence.ref (webhookId webhook.id (js "tpev_", [])))) ∧
        get (some (.obj relationship)) (js "to_ref") =
          some (.str (ObjectKind.event.ref
            (webhookId webhook.id (js "tpe_", 0x5F :: d.suffix)))) := by
  intro relationship hmem
  have hok : Except.ok relationship ∈ (eventDescriptors r.stripeEvent).mapIdx _ :=
    collect_eq_ok.mp h.relationships ▸ List.mem_map_of_mem hmem
  obtain ⟨i, hi, hmade⟩ := List.mem_mapIdx.mp hok
  rw [stripeRelationship] at hmade
  have hbuilt := createRelationship_built hmade
  refine ⟨_, List.getElem_mem hi, ?_, ?_⟩
  · rw [hbuilt.get_str (by decide) rfl, webhookId, List.append_nil]
    rfl
  · rw [hbuilt.get_str (by decide) rfl]
    simp [webhookId, ObjectKind.ref, List.append_assoc]
    rfl

/-- The objects that a revision appends can be appended. -/
theorem PreparedRevision.appendable (h : PreparedRevision host relay w r previous revision parts)
    (hreceived : Received host relay w r webhook) (hprevious : Extendable host relay previous)
    (hissuer : relay.issuerId ≠ []) (hfits : r.Fits host w previous) :
    Appendable host.toRuntime previous.members
      (parts.unsigned host revision.actionId previous r) (parts.newEvents.map .obj)
      [.obj r.observation.evidence] (r.observation.relationships.map .obj) := by
  have hsections := h.sections_unsigned hreceived hprevious.plain_bundle
  obtain ⟨heventIds, hlinked⟩ := h.linked hreceived hprevious
  have hissuerIds : (sectionsOf previous.members).issuerIds = [relay.issuerId] := by
    rw [Sections.issuerIds, hprevious.issuers]
    rfl
  have hids := h.appendedIds_eq hreceived hprevious
  have hevidenceId := hreceived.get_evidenceId
  constructor
  case eventsOk =>
    rw [hissuerIds, List.forall_mem_map]
    intro new hnew
    obtain ⟨event, hevent, cause, hcause, digest, hlinks, hdigest, hvalid⟩ := hlinked new hnew
    have hok := hreceived.eventOk hissuer hfits.refundId (hfits.timely hreceived) event hevent
    exact hok.link hlinks (digestKeys_singleton hvalid)
  case evidenceOk =>
    rw [hissuerIds, List.forall_mem_singleton]
    exact hreceived.evidenceOk hissuer
  case relationshipsOk =>
    rw [List.forall_mem_map]
    exact hreceived.relationshipOk
  case references =>
    rw [List.forall_mem_map]
    intro new hnew
    obtain ⟨event, hevent, cause, hcause, digest, hlinks, hdigest, hvalid⟩ := hlinked new hnew
    obtain ⟨-, -, hrefs⟩ := hreceived.events_built event hevent
    constructor
    · rw [hlinks.parents_eq, itemsOf, List.forall_mem_singleton]
      refine ⟨hvalid, ⟨cause, ?_, ?_⟩, ?_⟩
      · rw [hsections]
        exact hcause
      · rw [declaredValue, hdigest]
      · apply hfits.parents _ h.newEvents new hnew
        rw [hlinks.parents_eq]
        exact List.mem_singleton_self digest
    · rw [hlinks.get_eq (by decide) (by decide), hrefs, itemsOf, List.forall_mem_singleton,
        isOneOf_str, hsections]
      exact mem_idsOf.mpr ⟨_, List.mem_append_right _ (List.mem_singleton_self _), hevidenceId⟩
  case endpoints =>
    rw [List.forall_mem_map]
    intro relationship hrelationship
    obtain ⟨d, hd, hfrom, hto⟩ := hreceived.relationship_built relationship hrelationship
    have hevent : webhookId webhook.id (js "tpe_", 0x5F :: d.suffix) ∈
        idsOf (js "event_id") (parts.newEvents.map .obj) := by
      rw [heventIds, hreceived.eventIds]
      exact List.mem_map_of_mem hd
    simp only [EndpointsOk, List.forall_mem_cons, hfrom, hto, isOneOf_str]
    refine ⟨ObjectKind.ref_mem_refs _ ?_, ObjectKind.ref_mem_refs _ ?_, List.forall_mem_nil _⟩
    · rw [hsections]
      exact mem_idsOf.mpr ⟨_, List.mem_append_right _ (List.mem_singleton_self _), hevidenceId⟩
    · rw [hsections]
      simp only [ObjectKind.idField, ObjectKind.items, idsOf_append]
      exact List.mem_append_right _ hevent
  case distinct =>
    rw [hids]
    exact nodup_webhookIds _ _
  case fresh =>
    rw [hids, List.forall_mem_map]
    intro part hpart hmem
    obtain ⟨hword, htail⟩ := idParts_ok hpart
    have hkey := RelayId.key_mem hword htail (hprevious.objectIds _ hmem)
    obtain ⟨seen, hseen, heq⟩ := List.mem_map.mp hkey
    have heventId := h.eventId
    rw [hreceived.parts_id heventId] at heq
    exact (hfits.fresh _ heventId seen hseen).1 heq

/-- The body of a webhook and the objects made of it are encodable. -/
theorem Received.encodable (h : Received host relay w r webhook) :
    Encodable r.stripeEvent ∧ Encodable (.obj r.observation.evidence) ∧
      ∀ relationship ∈ r.observation.relationships, Encodable (.obj relationship) := by
  refine ⟨?_, ?_, fun relationship hmem ↦ ?_⟩
  · obtain ⟨eventIdText, hevidence⟩ := h.evidence
    unfold stripeEvidence at hevidence
    simp only [bind_eq_ok_iff, mapError_eq_ok] at hevidence
    obtain ⟨contentDigest, hdigest, -⟩ := hevidence
    exact (encodable_of_digestValue hdigest).1
  · obtain ⟨eventIdText, hevidence⟩ := h.evidence
    unfold stripeEvidence at hevidence
    simp only [bind_eq_ok_iff, mapError_eq_ok] at hevidence
    obtain ⟨contentDigest, -, authentication, -, hitem⟩ := hevidence
    exact (createEvidenceItem_built hitem).encodable
  · have hok : Except.ok relationship ∈ (eventDescriptors r.stripeEvent).mapIdx _ :=
      collect_eq_ok.mp h.relationships ▸ List.mem_map_of_mem hmem
    obtain ⟨i, hi, hmade⟩ := List.mem_mapIdx.mp hok
    rw [stripeRelationship] at hmade
    exact (createRelationship_built hmade).encodable

theorem wellFormedText_get {v w : Json} {key : JsString} (h : v.WellFormedText)
    (hget : get (some v) key = some w) : w.WellFormedText := by
  cases v with
  | obj ms => exact (wellFormedText_obj_iff.mp h _ (mem_of_member_eq hget)).2
  | _ => cases hget

/-- The texts of the extension of a revision. -/
theorem wellFormedText_revisionExtension (hprevious : Extendable host relay previous)
    (hevent : r.stripeEvent.WellFormedText) :
    (Json.obj (revisionExtension previous.metadata r)).WellFormedText := by
  have hoptional (name : String) (hname : wellFormed (js name) = true) (key : String) :
      ∀ m ∈ ((get (some r.stripeEvent) (js key)).map fun v ↦ (js name, v)).toList,
        wellFormed m.1 = true ∧ m.2.WellFormedText := by
    intro m hm
    rw [Option.mem_toList, Option.map_eq_some_iff] at hm
    obtain ⟨v, hv, rfl⟩ := hm
    exact ⟨hname, wellFormedText_get hevent hv⟩
  have hnumber : (natNumber (previous.metadata.revision + 1)).WellFormedText := trivial
  have hverified : (Json.bool true).WellFormedText := trivial
  have hid := hoptional "event_id" (by decide) "id"
  have htype := hoptional "event_type" (by decide) "type"
  obtain ⟨hruleset, hcorrelations⟩ := hprevious.encodes
  unfold revisionExtension relayExtension
  simp +decide only [wellFormedText_obj_iff, wellFormedText_str, List.forall_mem_cons,
    List.forall_mem_append, List.not_mem_nil, false_imp_iff, implies_true, and_true, true_and,
    hnumber, hverified, hruleset]
  exact ⟨wellFormedText_obj_iff.mp hcorrelations, hid, htype⟩

/-- The frame of a revision is of the profile. -/
theorem PreparedRevision.frameOk (h : PreparedRevision host relay w r previous revision parts)
    (hreceived : Received host relay w r webhook) (hprevious : Extendable host relay previous)
    (hactionId : revision.actionId ≠ [] ∧ wellFormed revision.actionId = true)
    (hfits : r.Fits host w previous) :
    FrameOk host.toRuntime (parts.unsigned host revision.actionId previous r) := by
  have hsections := h.sections_unsigned hreceived hprevious.plain_bundle
  obtain ⟨now, hnow, htimestamp⟩ := toIsoString_eq_ok h.now
  have hvalid : validTimestampText parts.timestamp = true := by
    rw [htimestamp]
    exact (validTimestampText_isoText now).mpr (hfits.revisionClock now hnow)
  have hpredecessor : validDigest (some parts.predecessor) = true := by
    obtain ⟨bytes, -, heq⟩ := map_eq_ok_iff.mp h.predecessor
    rw [← heq]
    exact validDigest_iff.mpr ⟨_, isDigest_digestObject _, sha256Pattern_sha256Hex _ bytes⟩
  have henvelope : EnvelopeOk (.obj (parts.unsigned host revision.actionId previous r)) :=
    envelopeOk_createEvidenceBundle _
  constructor
  case envelope => exact henvelope
  case payload =>
    rw [RevisionParts.unsigned, unsignedRevision, payload_createEvidenceBundle,
      payloadOk_bundlePayload_iff]
    refine ⟨?_, hactionId.1, hvalid⟩
    exact List.append_ne_nil_of_left_ne_nil (List.append_ne_nil_of_left_ne_nil
      (List.append_ne_nil_of_left_ne_nil (by decide) _) _) _
  case predecessors =>
    rw [hsections, List.forall_mem_singleton]
    exact hpredecessor
  case distinctPredecessors =>
    rw [hsections]
    exact digestKeys_singleton hpredecessor
  case payloadDigest =>
    have htexts := wellFormedText_items hprevious.accepted
    obtain ⟨hevent, hevidence, hrelationships⟩ := hreceived.encodable
    obtain ⟨-, hlinked⟩ := h.linked hreceived hprevious
    rw [henvelope.payloadDigest_iff, RevisionParts.unsigned, unsignedRevision,
      payload_createEvidenceBundle, encodable_bundlePayload_iff]
    refine ⟨wellFormed_bundleIdOf _ _ _, hactionId.2, ?_, htexts (js "issuers"), ?_, ?_, ?_, ?_, ?_⟩
    · show wellFormed parts.timestamp = true
      rw [htimestamp]
      exact wellFormed_isoText now
    · rw [List.forall_mem_append, List.forall_mem_map]
      refine ⟨htexts (js "events"), fun new hnew ↦ ?_⟩
      obtain ⟨event, hevent, cause, hcause, digest, hlinks, -⟩ := hlinked new hnew
      exact wellFormedText_of_encodable hlinks.encodable
    · rw [List.forall_mem_append, List.forall_mem_singleton]
      exact ⟨htexts (js "evidence"), wellFormedText_of_encodable hevidence⟩
    · rw [List.forall_mem_append, List.forall_mem_map]
      exact ⟨htexts (js "relationships"), fun relationship hmem ↦
        wellFormedText_of_encodable (hrelationships relationship hmem)⟩
    · rw [List.forall_mem_singleton]
      exact wellFormedText_of_encodable (encodable_of_digestValue h.predecessor).2
    · exact wellFormedText_revisionExtension hprevious (wellFormedText_of_encodable hevent)

/-- The targets of a revision name the objects that it appends. -/
theorem PreparedRevision.requestable (h : PreparedRevision host relay w r previous revision parts)
    (hreceived : Received host relay w r webhook) (hprevious : Extendable host relay previous) :
    ∀ target ∈ targetOf (js "EVIDENCE_ITEM") (idText r.observation.evidence "evidence_id") ::
        parts.newEvents.map fun event ↦ targetOf (js "OUTCOME_EVENT") (idText event "event_id"),
      Requestable (parts.unsigned host revision.actionId previous r) target := by
  have hsections := h.sections_unsigned hreceived hprevious.plain_bundle
  obtain ⟨-, hlinked⟩ := h.linked hreceived hprevious
  rw [List.forall_mem_cons, List.forall_mem_map]
  constructor
  · have hid := hreceived.get_evidenceId
    have htext : idText r.observation.evidence "evidence_id" =
        webhookId webhook.id (js "tpev_", []) := congrArg stringOf hid
    rw [htext]
    refine .object rfl rfl rfl rfl ?_ hid
    show _ ∈ (sectionsOf (parts.unsigned host revision.actionId previous r)).evidence
    rw [hsections]
    exact List.mem_append_right _ (List.mem_singleton_self _)
  · intro new hnew
    obtain ⟨event, hevent, cause, hcause, digest, hlinks, -⟩ := hlinked new hnew
    obtain ⟨d, hd, hmade⟩ := hreceived.mem_events.mp hevent
    rw [stripeOutcomeEvent] at hmade
    have hid : get (some (.obj new)) (js "event_id") = get (some (.obj event)) (js "event_id") :=
      hlinks.get_eq (by decide) (by decide)
    rw [(createOutcomeEvent_built hmade).get_str (by decide) rfl] at hid
    have htext : idText new "event_id" = _ := congrArg stringOf hid
    rw [htext]
    refine .object rfl rfl rfl rfl ?_ hid
    show _ ∈ (sectionsOf (parts.unsigned host revision.actionId previous r)).events
    rw [hsections]
    exact List.mem_append_right _ (List.mem_map_of_mem hnew)

/-- The proofs of targets that name objects name them. -/
theorem Signs.named {bundle : Members} {targets : List Members} {createdAt proofIds : JsString}
    {proofs : List Json} (h : Signs host relay bundle targets createdAt proofIds proofs)
    (htargets : ∀ target ∈ targets, ∃ targetType targetId, targetType ≠ js "BUNDLE_PAYLOAD" ∧
      target = targetOf targetType targetId) :
    ∀ proof ∈ proofs, NamesObject (get (some proof) (js "target")) := by
  intro proof hproof
  obtain ⟨i, target, htarget, hcreated⟩ := h.exists_target hproof
  obtain ⟨targetType, targetId, hne, heq⟩ := htargets target htarget
  obtain ⟨-, htype, -⟩ := createSignatureProof_names heq hcreated
  rw [NamesObject, htype]
  intro hpayload
  exact hne (Json.str.inj (Option.some.inj hpayload))

/-- The ids of the proofs of a webhook. -/
theorem PreparedRevision.mem_proofIds
    (h : PreparedRevision host relay w r previous revision parts) {id : JsString}
    (hid : id ∈ idsOf (js "proof_id") parts.proofs) :
    ∃ i, id = webhookId (safeId host parts.eventId) (js "tpp_", 0x5F :: decimal (i + 1)) := by
  rw [h.signs.ids, List.mem_map] at hid
  obtain ⟨i, -, rfl⟩ := hid
  refine ⟨i, ?_⟩
  simp [webhookId, List.append_assoc]
  rfl

theorem isTail_proof (i : Nat) : js "tpp_" ∈ idWords ∧
    IsTail (js "tpp_") (0x5F :: decimal (i + 1)) := by
  have hword : js "tpp_" ≠ js "tpev_" ∧ js "tpp_" ∈ idWords := by decide
  refine ⟨hword.2, ?_⟩
  rw [IsTail, if_neg hword.1]
  exact ⟨_, rfl, underscore_not_mem_decimal _⟩

/-- The revision of a webhook that fits is accepted. -/
theorem PreparedRevision.accepted (h : PreparedRevision host relay w r previous revision parts)
    (hreceived : Received host relay w r webhook) (hprevious : Extendable host relay previous)
    (hactionId : revision.actionId ≠ [] ∧ wellFormed revision.actionId = true)
    (hrelay : relay.WellNamed)
    (hmatch : MatchingKey host.toRuntime (relayKey relay) relay.key.privateKeyPem)
    (hfits : r.Fits host w previous) : Accepted host.toRuntime revision.bundle := by
  have hsections := h.sections_unsigned hreceived hprevious.plain_bundle
  have hunsigned : Accepted host.toRuntime
      (parts.unsigned host revision.actionId previous r) := by
    apply hprevious.accepted.extend (h.extends_unsigned hreceived hprevious)
      (h.frameOk hreceived hprevious hactionId hfits)
      (h.appendable hreceived hprevious hrelay.issuerId hfits) _ hprevious.named
    rw [hsections]
  have hcreated : validTimestampText parts.timestamp = true := by
    obtain ⟨now, hnow, htimestamp⟩ := toIsoString_eq_ok h.now
    rw [htimestamp]
    exact (validTimestampText_isoText now).mpr (hfits.revisionClock now hnow)
  have hissuer : .obj (relayIssuer relay) ∈
      (sectionsOf (parts.unsigned host revision.actionId previous r)).issuers := by
    rw [hsections, hprevious.issuers]
    exact List.mem_singleton_self _
  rw [h.bundle]
  apply (accepted_withProofs_iff hunsigned).mpr
  constructor
  · intro proof hproof
    exact (h.signs.accepted_iff hunsigned.toContentOk hissuer (h.requestable hreceived hprevious)
      hmatch hcreated hproof).mpr ⟨hrelay.keySharp, hrelay.issuerLine⟩
  · have hproofIds := hprevious.accepted.proofIds
    rw [hsections, idsOf_append, List.nodup_append]
    refine ⟨hproofIds, h.signs.ids_nodup, ?_⟩
    rintro id hold id' hnew rfl
    obtain ⟨i, rfl⟩ := h.mem_proofIds hnew
    obtain ⟨hword, htail⟩ := isTail_proof i
    have hkey := RelayId.key_mem hword htail (hprevious.proofIds _ hold)
    obtain ⟨seen, hseen, heq⟩ := List.mem_map.mp hkey
    exact (hfits.fresh _ h.eventId seen hseen).2 heq

theorem wellFormedText_cloneMembers {ms : Members} (h : (Json.obj ms).WellFormedText) :
    (Json.obj (cloneMembers ms)).WellFormedText := by
  have hclone : clone (.obj ms) = .obj (cloneMembers ms) := by rw [clone]
  rw [← hclone]
  exact wellFormedText_of_encodable (encodable_clone h)

/-- The revision of a webhook that fits is valid. -/
theorem PreparedRevision.validBundle (h : PreparedRevision host relay w r previous revision parts)
    (hreceived : Received host relay w r webhook) (hprevious : Extendable host relay previous)
    (hactionId : revision.actionId ≠ [] ∧ wellFormed revision.actionId = true)
    (hrelay : relay.WellNamed)
    (hmatch : MatchingKey host.toRuntime (relayKey relay) relay.key.privateKeyPem)
    (hfits : r.Fits host w previous) :
    ValidBundle host relay (previous.metadata.seenUpstreamEventIds ++ [parts.eventId])
      revision.bundle := by
  have hsections := h.sections hreceived hprevious.plain_bundle
  have hkeys (f : JsString → JsString) :
      previous.metadata.seenUpstreamEventIds.map f ⊆
        (previous.metadata.seenUpstreamEventIds ++ [parts.eventId]).map f :=
    List.map_subset f (List.subset_append_left _ _)
  have hnewKey (f : JsString → JsString) :
      f parts.eventId ∈ (previous.metadata.seenUpstreamEventIds ++ [parts.eventId]).map f :=
    List.mem_map_of_mem (List.mem_append_right _ (List.mem_singleton_self _))
  constructor
  case plain => exact h.plain
  case accepted => exact h.accepted hreceived hprevious hactionId hrelay hmatch hfits
  case objectIds =>
    intro id hid
    have hextends := h.extends_unsigned hreceived hprevious
    have hsame : (sectionsOf revision.bundle).objectIds =
        (sectionsOf (parts.unsigned host revision.actionId previous r)).objectIds := by
      rw [h.bundle, sectionsOf_withProofs]
      rfl
    rw [hsame, hextends.objectIds_perm.mem_iff, List.mem_append] at hid
    rcases hid with hold | hnew
    · exact (hprevious.objectIds id hold).mono (hkeys normalizedId)
    · rw [h.appendedIds_eq hreceived hprevious, List.mem_map] at hnew
      obtain ⟨part, hpart, rfl⟩ := hnew
      obtain ⟨hword, htail⟩ := idParts_ok hpart
      rw [hreceived.parts_id h.eventId]
      exact .webhook hword (hnewKey normalizedId) htail
  case proofIds =>
    intro id hid
    rw [hsections, idsOf_append, List.mem_append] at hid
    rcases hid with hold | hnew
    · exact (hprevious.proofIds id hold).mono (hkeys (safeId host))
    · obtain ⟨i, rfl⟩ := h.mem_proofIds hnew
      obtain ⟨hword, htail⟩ := isTail_proof i
      exact .webhook hword (hnewKey (safeId host)) htail
  case named =>
    intro proof hproof
    rw [hsections, List.mem_append] at hproof
    rcases hproof with hold | hnew
    · exact hprevious.named proof hold
    · apply h.signs.named _ proof hnew
      rw [List.forall_mem_cons, List.forall_mem_map]
      exact ⟨⟨_, _, by decide, rfl⟩, fun event _ ↦ ⟨_, _, by decide, rfl⟩⟩
  all_goals rw [hsections]
  case issuers => exact hprevious.issuers
  case events => exact List.append_ne_nil_of_left_ne_nil hprevious.events _
  case evidence => exact List.append_ne_nil_of_left_ne_nil hprevious.evidence _
  case proofs => exact List.append_ne_nil_of_left_ne_nil hprevious.proofs _

end

end TimeProofs.Relay
