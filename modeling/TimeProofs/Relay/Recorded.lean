import TimeProofs.Core.Referencing
import TimeProofs.Relay.Sequential

/-!
# The first revision

When the bundle of a recorded action is valid. The service checks that the entities have texts,
that the correlations are an object and that the claim is not a primitive value, and takes the
rest of the request as it is; the verifier asks for more.
-/

namespace TimeProofs.Relay

open TimeProofs.Base TimeProofs.Json TimeProofs.Core TimeProofs.VerdictEngine
  TimeProofs.StripeConnector

/-- The key that the relay lists. -/
def relayKey (relay : RelayService) : Json :=
  .obj [(js "key_id", .str relay.key.keyId), (js "algorithm", .str (js "Ed25519")),
    (js "format", .str (js "spki-pem")), (js "public_key", .str relay.key.publicKeyPem)]

/-- A relay whose issuer is one of the profile. -/
structure RelayService.Listed (relay : RelayService) : Prop where
  issuerId : relay.issuerId ≠ []
  keyId : relay.key.keyId ≠ []
  publicKey : includes relay.key.publicKeyPem (js "-----BEGIN PUBLIC KEY-----") = true ∧
    includes relay.key.publicKeyPem (js "-----END PUBLIC KEY-----") = true
  keyTexts : wellFormed relay.key.keyId = true ∧ wellFormed relay.key.publicKeyPem = true

/-- A relay whose proofs name it and its key. -/
structure RelayService.WellNamed (relay : RelayService) : Prop extends relay.Listed where
  issuerLine : ∀ c ∈ relay.issuerId, isDot c = true
  keySharp : 0x23 ∉ relay.key.keyId

section

variable {rt : Runtime} {relay : RelayService}

theorem get_relayIssuer_issuerId :
    get (some (.obj (relayIssuer relay))) (js "issuer_id") = some (.str relay.issuerId) := rfl

theorem get_relayIssuer_identifiers :
    get (some (.obj (relayIssuer relay))) (js "identifiers") = some (.arr
      [.obj [(js "scheme", .str (js "urn")), (js "value", .str relay.issuerId)]]) := by
  have hget : get (some (.obj (relayIssuer relay))) (js "identifiers") = some (clone (.arr
      [.obj [(js "scheme", .str (js "urn")), (js "value", .str relay.issuerId)]])) := rfl
  rw [hget]
  simp [clone, cloneItems, cloneMembers]

theorem get_relayIssuer_keys :
    get (some (.obj (relayIssuer relay))) (js "keys") = some (.arr [relayKey relay]) := by
  have hget : get (some (.obj (relayIssuer relay))) (js "keys") =
      some (clone (.arr [relayKey relay])) := rfl
  rw [hget]
  simp [clone, cloneItems, cloneMembers, relayKey]

theorem keyOk_relayKey_iff : KeyOk (relayKey relay) ↔ relay.key.keyId ≠ [] ∧
    includes relay.key.publicKeyPem (js "-----BEGIN PUBLIC KEY-----") = true ∧
    includes relay.key.publicKeyPem (js "-----END PUBLIC KEY-----") = true := by
  constructor
  · intro h
    obtain ⟨pem, hpem, hincludes⟩ := h.publicKey
    cases hpem
    exact ⟨isNonEmptyString_str.mp h.keyId, hincludes⟩
  · rintro ⟨hkeyId, hincludes⟩
    exact
      { keys := rfl
        keyId := isNonEmptyString_str.mpr hkeyId
        algorithm := rfl
        format := rfl
        publicKey := ⟨_, rfl, hincludes⟩
        validFrom := .inl rfl
        validUntil := .inl rfl
        interval := nofun
        revocationRef := .inl rfl }

theorem issuerOk_relayIssuer_iff : IssuerOk rt (.obj (relayIssuer relay)) ↔
    relay.issuerId ≠ [] ∧ KeyOk (relayKey relay) := by
  constructor
  · intro h
    obtain ⟨keys, hkeys, hok, -⟩ := h.keyList
    rw [get_relayIssuer_keys] at hkeys
    cases hkeys
    exact ⟨isNonEmptyString_str.mp h.issuerId, hok _ List.mem_cons_self⟩
  · rintro ⟨hissuerId, hkey⟩
    have hidentifier :
        IdentifierOk (.obj [(js "scheme", .str (js "urn")), (js "value", .str relay.issuerId)]) :=
      { keys := rfl
        scheme := rfl
        value := isNonEmptyString_str.mpr hissuerId }
    exact
      { keys := rfl
        issuerId := isNonEmptyString_str.mpr hissuerId
        displayName := rfl
        issuerType := rfl
        identifiers := by
          refine ⟨_, get_relayIssuer_identifiers, List.forall_mem_singleton.mpr hidentifier, ?_⟩
          exact ⟨_, rfl, List.nodup_singleton _⟩
        keyList := by
          refine ⟨_, get_relayIssuer_keys, List.forall_mem_singleton.mpr hkey, ?_⟩
          exact List.nodup_singleton _
        extensions := by
          have hget : get (some (.obj (relayIssuer relay))) (js "extensions") = some (clone (.obj
              (relayExtension [(js "role", .str (js "operator_controlled_evidence_relay")),
                (js "version", .str (js "0.1.0-alpha.0"))]))) := rfl
          rw [hget, isObject_clone]
          rfl }

end

/-- An entity of a request with a type and an id. -/
structure EntityNamed (entity : Option Json) : Prop where
  entityType : get entity (js "entity_type") ≠ some (.str [])
  entityId : get entity (js "entity_id") ≠ some (.str [])

/-- A time that is not after the given instant, as the verifier compares them. -/
def NotAfter (occurredAt : Json) (now : Int) : Prop :=
  ∃ s fields, occurredAt = .str s ∧ validTimestampText s = true ∧ readTimestamp s = some fields ∧
    parsedTime fields ≤ now

/-- A request whose members the verifier accepts, at a reading of the clock whose year has four
digits. -/
structure ActionRequest.WellPosed (request : ActionRequest) : Prop where
  clock : ∀ now, request.now = some now →
    100 ≤ (utcFields now).year ∧ (utcFields now).year ≤ 9999
  actor : EntityNamed (get (some request.input) (js "actor"))
  subject : EntityNamed (get (some request.input) (js "subject"))
  claim : isArray (get (some request.input) (js "claim")) = false
  occurredAt : ∀ v now, get (some request.input) (js "occurred_at") = some v → v ≠ .null →
    request.now = some now → NotAfter v now
  correlations : ∀ v, get (some request.input) (js "correlations") = some v → v.WellFormedText

/-- The verifier takes a time when it is not after the reading of the clock. -/
theorem notAfter_iff {v : Json} {now : Int}
    (hclock : 100 ≤ (utcFields now).year ∧ (utcFields now).year ≤ 9999) :
    (validUtcTimestamp (some v) = true ∧
      0 ≤ compareTimestamps (some (.str (isoText now))) (some v)) ↔ NotAfter v now := by
  have hread := readTimestamp_isoText (t := now) (by omega) hclock.2
  have hparsed := parsedTime_isoText (by omega) hclock.2 hread
  have hcompare {s : JsString} {fields : TimestampFields} (hs : readTimestamp s = some fields) :
      compareTimestamps (some (.str (isoText now))) (some (.str s)) = now - parsedTime fields := by
    unfold compareTimestamps
    dsimp only
    rw [hread, hs, Option.map_some, Option.map_some, Option.getD_some, Option.getD_some, hparsed]
  constructor
  · rintro ⟨hvalid, hafter⟩
    obtain ⟨s, hs, htext⟩ := validUtcTimestamp_iff.mp hvalid
    obtain rfl := Option.some.inj hs
    obtain ⟨fields, hfields, -⟩ := (validTimestampText_iff s).mp htext
    rw [hcompare hfields] at hafter
    exact ⟨s, fields, rfl, htext, hfields, by omega⟩
  · rintro ⟨s, fields, rfl, htext, hfields, hle⟩
    refine ⟨htext, ?_⟩
    rw [hcompare hfields]
    omega

/-- The reading itself is not after the clock. -/
theorem notAfter_isoText {now : Int}
    (hclock : 100 ≤ (utcFields now).year ∧ (utcFields now).year ≤ 9999) :
    NotAfter (.str (isoText now)) now := by
  have hread := readTimestamp_isoText (t := now) (by omega) hclock.2
  exact ⟨_, _, rfl, (validTimestampText_isoText now).mpr hclock, hread,
    (parsedTime_isoText (by omega) hclock.2 hread).le⟩

/-- What the service takes from the entity of a request. -/
theorem requiredEntity_eq_ok {value : Option Json} {fieldName : String} {entity : Members}
    (h : requiredEntity value fieldName = .ok entity) :
    Plain (.obj entity) ∧ (EntityOk (some (.obj entity)) ↔ EntityNamed value) := by
  unfold requiredEntity at h
  split at h
  · next entityType entityId htype hid =>
    obtain rfl := Except.ok.inj h
    have hnamed : EntityNamed value ↔ entityType ≠ [] ∧ entityId ≠ [] := by
      constructor
      · intro hnamed
        refine ⟨?_, ?_⟩
        · rintro rfl
          exact hnamed.entityType htype
        · rintro rfl
          exact hnamed.entityId hid
      · rintro ⟨htypeText, hidText⟩
        refine ⟨?_, ?_⟩
        · rw [htype]
          intro heq
          exact htypeText (Json.str.inj (Option.some.inj heq))
        · rw [hid]
          intro heq
          exact hidText (Json.str.inj (Option.some.inj heq))
    have hentity (more : Members)
        (hmore : more = [] ∨ ∃ name, more = [(js "display_name", .str name)]) :
        let entity := [(js "entity_type", .str entityType), (js "entity_id", .str entityId)] ++ more
        Plain (.obj entity) ∧ (EntityOk (some (.obj entity)) ↔ EntityNamed value) := by
      rw [hnamed]
      rcases hmore with rfl | ⟨name, rfl⟩
      · refine ⟨?_, fun hok ↦ ?_, fun ⟨htypeText, hidText⟩ ↦ ?_⟩
        · simp [plain_obj_iff, plain_str]
        · exact ⟨isNonEmptyString_str.mp hok.entityType, isNonEmptyString_str.mp hok.entityId⟩
        · exact ⟨rfl, isNonEmptyString_str.mpr htypeText, isNonEmptyString_str.mpr hidText,
            .inl rfl⟩
      · refine ⟨?_, fun hok ↦ ?_, fun ⟨htypeText, hidText⟩ ↦ ?_⟩
        · simp [plain_obj_iff, plain_str]
        · exact ⟨isNonEmptyString_str.mp hok.entityType, isNonEmptyString_str.mp hok.entityId⟩
        · exact ⟨rfl, isNonEmptyString_str.mpr htypeText, isNonEmptyString_str.mpr hidText,
            .inr rfl⟩
    split
    · next name _ => exact hentity _ (.inr ⟨name, rfl⟩)
    · exact hentity _ (.inl rfl)
  · cases h

/-- The members of a request that passed its checks. -/
structure CheckedAction (input : Json) (a : ActionInput) : Prop where
  actionId : a.actionId ≠ []
  correlations : get (some input) (js "correlations") = none ∧ a.correlations = [] ∨
    get (some input) (js "correlations") = some (.obj a.correlations)
  actor : requiredEntity (get (some input) (js "actor")) "actor" = .ok a.actor
  subject : requiredEntity (get (some input) (js "subject")) "subject" = .ok a.subject
  claim : a.claim = if isObjectLike (get (some input) (js "claim"))
    then orNull (get (some input) (js "claim")) else .obj []
  occurredAt : a.occurredAt = if isNullish (get (some input) (js "occurred_at")) then none
    else get (some input) (js "occurred_at")

theorem checkAction_checked {input : Json} {a : ActionInput} (h : checkAction input = .ok a) :
    CheckedAction input a := by
  unfold checkAction at h
  dsimp only at h
  split at h
  · cases h
  · split at h
    · next actionId hactionId =>
      split at h
      · cases h
      · next hne =>
        split at h
        · cases h
        · next hcorrelations =>
          split at h
          · cases h
          · simp only [bind_eq_ok_iff] at h
            obtain ⟨actor, hactor, subject, hsubject, h⟩ := h
            obtain rfl := Except.ok.inj h
            refine ⟨hne, ?_, hactor, hsubject, rfl, rfl⟩
            cases hget : get (some input) (js "correlations") with
            | none => exact .inl ⟨rfl, rfl⟩
            | some v =>
              rw [hget] at hcorrelations
              have hobject : isObject (some v) = true := by simpa using hcorrelations
              obtain ⟨ms, hms⟩ := isObject_iff.mp hobject
              cases hms
              exact .inr rfl
    · cases h

section

variable {input : Json} {a : ActionInput}

/-- The claim of a checked request is an object unless the request has an array there. -/
theorem CheckedAction.isObject_claim (h : CheckedAction input a) :
    isObject (some a.claim) = true ↔ isArray (get (some input) (js "claim")) = false := by
  rw [h.claim]
  cases get (some input) (js "claim") with
  | none => exact iff_of_true rfl rfl
  | some v => cases v <;> simp [isObjectLike, isObject, isArray, orNull]

/-- The correlations of a checked request are well formed exactly when those it has are. -/
theorem CheckedAction.wellFormed_correlations (h : CheckedAction input a) :
    (Json.obj a.correlations).WellFormedText ↔
      ∀ v, get (some input) (js "correlations") = some v → v.WellFormedText := by
  rcases h.correlations with ⟨hnone, hempty⟩ | hobject
  · rw [hnone, hempty, Json.WellFormedText, Json.all_obj]
    simp
  · rw [hobject]
    simp

end

theorem isHexLower_of_mem_safeId {host : Host} {value : JsString} {c : CodeUnit}
    (h : c ∈ safeId host value) : isHexLower c = true := by
  have hpattern := sha256Pattern_sha256Hex host.toRuntime (utf8 value)
  rw [sha256Pattern, Bool.and_eq_true, List.all_eq_true] at hpattern
  exact hpattern.2 c (List.mem_of_mem_take h)

theorem isRefUnit_of_isHexLower {c : CodeUnit} (h : isHexLower c = true) : isRefUnit c = true := by
  have hne {d : CodeUnit} (hd : isHexLower d = false) : c ≠ d := by
    rintro rfl
    rw [hd] at h
    cases h
  have hlist : c ∉ ([0x20, 0xA0, 0x1680, 0x2028, 0x2029, 0x202F, 0x205F, 0x3000, 0xFEFF] :
      List CodeUnit) := by
    simp only [List.mem_cons, List.not_mem_nil, or_false, not_or]
    exact ⟨hne (by decide), hne (by decide), hne (by decide), hne (by decide), hne (by decide),
      hne (by decide), hne (by decide), hne (by decide), hne (by decide)⟩
  have hcolon : c ≠ 0x3A := hne (by decide)
  simp only [isHexLower, isDigit, Bool.or_eq_true, Bool.and_eq_true, decide_eq_true_eq] at h
  have hlow : ¬(0x09 ≤ c.toNat ∧ c.toNat ≤ 0x0D) := by omega
  have hhigh : ¬(0x2000 ≤ c.toNat ∧ c.toNat ≤ 0x200A) := by omega
  rw [isRefUnit, isSpace, Bool.and_eq_true, decide_eq_true_eq, Bool.not_eq_true',
    Bool.or_eq_false_iff, Bool.or_eq_false_iff, ← Bool.not_eq_true, ← Bool.not_eq_true]
  simp only [Bool.and_eq_true, decide_eq_true_eq, decide_eq_false_iff_not]
  exact ⟨hcolon, ⟨hlow, hhigh⟩, hlist⟩

/-- An id of a relay's object is a reference text. -/
theorem isRefText_id {host : Host} {idPrefix value : JsString} (h : isRefText idPrefix = true) :
    isRefText (idPrefix ++ safeId host value) = true := by
  rw [isRefText, List.all_append, Bool.and_eq_true]
  refine ⟨h, List.all_eq_true.mpr fun c hc ↦ ?_⟩
  exact isRefUnit_of_isHexLower (isHexLower_of_mem_safeId hc)

section

variable {host : Host} {relay : RelayService} {input : ActionInput} {suffix : JsString}

/-- The options of the evidence of a recorded action. -/
theorem claimEvidence_ok_iff {evidence : Members}
    (h : claimEvidence host relay input suffix = .ok evidence) :
    EvidenceOk host.toRuntime [relay.issuerId] (.obj evidence) ↔ relay.issuerId ≠ [] := by
  obtain ⟨contentDigest, hdigest, hevidence⟩ := bind_eq_ok_iff.mp h
  rw [createEvidenceItem_ok_iff hevidence]
  have hcontent : validDigest (some (clone contentDigest)) = true := by
    rw [(plain_digestValue hdigest).clone_eq]
    obtain ⟨bytes, -, rfl⟩ := map_eq_ok_iff.mp hdigest
    exact validDigest_iff.mpr ⟨_, isDigest_digestObject _, sha256Pattern_sha256Hex _ bytes⟩
  have hlocator : LocatorOk host.toRuntime (some (clone (.obj
      [(js "scheme", .str (js "opaque")), (js "value", .str (js "relay:claim:" ++ input.actionId)),
        (js "retrieval_policy", .str (js "LOCAL_ONLY"))]))) := by
    rw [clone]
    simp only [cloneMembers, clone_str]
    refine ⟨rfl, rfl, rfl, rfl, ?_, ?_⟩
    · intro hhttps
      cases hhttps
    · intro hembedded
      cases hembedded
  have hscope : [js "commerce.refund.requested"] ≠ [] ∧ [js "commerce.refund.requested"].Nodup ∧
      ∀ eventType ∈ [js "commerce.refund.requested"], eventTypePattern.test eventType = true := by
    decide
  constructor
  · intro hok
    exact hok.issuerRef.2
  · intro hissuer
    exact
      { evidenceId := List.append_ne_nil_of_left_ne_nil (by decide) _
        evidenceType := (by decide : evidenceTypePattern.test (js "AGENT_ACTION_CLAIM") = true)
        mediaType := (by decide : mediaTypePattern.test (js "application/json") = true)
        sourceClass := (by decide : js "SELF_CLAIMED" ∈ sourceClasses)
        issuerRef := ⟨List.mem_singleton_self _, hissuer⟩
        contentDigest := hcontent
        locator := hlocator
        claimScope := hscope
        disclosure := (by decide : js "COMMITMENT_ONLY" ∈ disclosures) }

/-- A relationship of a recorded action is one of the profile. -/
theorem claimRelationship_ok {relationship : Members} {value : JsString}
    (h : claimRelationship host (safeId host value) = .ok relationship) :
    RelationshipOk host.toRuntime (.obj relationship) := by
  rw [claimRelationship] at h
  apply (createRelationship_ok_iff h).mpr
  have hevidence : ObjectKind.evidence.ref (js "tpev_claim_" ++ safeId host value) =
      js "evidence:" ++ (js "tpev_claim_" ++ safeId host value) := rfl
  have hevent : ObjectKind.event.ref (js "tpe_claim_" ++ safeId host value) =
      js "event:" ++ (js "tpe_claim_" ++ safeId host value) := rfl
  simp only [← hevidence, ← hevent]
  exact
    { relationshipId := List.append_ne_nil_of_left_ne_nil (by decide) _
      relationshipType := by
        show js "SUPPORTS" ∈ relationshipTypes
        decide
      fromRef := by
        show relationshipRefPattern.test (ObjectKind.evidence.ref _) = true
        rw [ObjectKind.test_ref _ (List.append_ne_nil_of_left_ne_nil (by decide) _)]
        exact isRefText_id (by decide)
      toRef := by
        show relationshipRefPattern.test (ObjectKind.event.ref _) = true
        rw [ObjectKind.test_ref _ (List.append_ne_nil_of_left_ne_nil (by decide) _)]
        exact isRefText_id (by decide)
      distinct := by
        intro heq
        exact absurd (ObjectKind.ref_inj heq).1 (by decide)
      vocabulary := ObjectKind.vocabulary_supports _ _ }

/-- What the verifier asks of the members that the event of an action takes from its request. -/
structure ClaimFits (relay : RelayService) (input : ActionInput) (timestamp : JsString) : Prop where
  issuerId : relay.issuerId ≠ []
  recordedAt : validTimestampText timestamp = true
  occurredAt : validUtcTimestamp (some (input.occurredAt.getD (.str timestamp))) = true
  recordedAfter : 0 ≤ compareTimestamps (some (.str timestamp))
    (some (input.occurredAt.getD (.str timestamp)))
  actor : EntityOk (some (clone (.obj input.actor)))
  subject : EntityOk (some (clone (.obj input.subject)))
  claim : isObject (some input.claim) = true

theorem claimEvent_ok_iff {timestamp : JsString} {event : Members}
    (h : claimEvent host relay input suffix timestamp = .ok event) :
    EventOk host.toRuntime [relay.issuerId] (.obj event) ↔ ClaimFits relay input timestamp := by
  rw [claimEvent] at h
  rw [createOutcomeEvent_ok_iff h]
  constructor
  · intro hok
    exact ⟨hok.issuerRef.2, hok.recordedAt, hok.occurredAt, hok.recordedAfter, hok.actor,
      hok.subject, hok.claim⟩
  · intro hfits
    have hvocabulary : validateEventVocabulary (some (.str (js "commerce.refund.requested")))
        (js "commerce.refund.requested") (js "INTENT") (js "SUCCEEDED") (js "SELF_CLAIMED") =
          .ok [] := rfl
    exact
      { eventId := List.append_ne_nil_of_left_ne_nil (by decide) _
        phase := (by decide : js "INTENT" ∈ phases)
        eventType := (by decide : eventTypePattern.test (js "commerce.refund.requested") = true)
        status := (by decide : js "SUCCEEDED" ∈ statuses)
        sourceClass := (by decide : js "SELF_CLAIMED" ∈ sourceClasses)
        occurredAt := hfits.occurredAt
        recordedAt := hfits.recordedAt
        recordedAfter := hfits.recordedAfter
        issuerRef := ⟨List.mem_singleton_self _, hfits.issuerId⟩
        parents := ⟨[], rfl, List.nodup_nil⟩
        evidenceRefs := List.nodup_singleton _
        actor := hfits.actor
        subject := hfits.subject
        claim := hfits.claim
        vocabulary := hvocabulary }

/-- The members of a checked request fit exactly when the request is well posed. -/
theorem claimFits_iff {request : ActionRequest} {now : Int} (h : CheckedAction request.input input)
    (hnow : request.now = some now) :
    (ClaimFits relay input (isoText now) ∧ (Json.obj input.correlations).WellFormedText) ↔
      relay.issuerId ≠ [] ∧ request.WellPosed := by
  obtain ⟨hactorPlain, hactor⟩ := requiredEntity_eq_ok h.actor
  obtain ⟨hsubjectPlain, hsubject⟩ := requiredEntity_eq_ok h.subject
  have hyear := validTimestampText_isoText now
  constructor
  · rintro ⟨hfits, hcorrelations⟩
    have hclock := hyear.mp hfits.recordedAt
    refine ⟨hfits.issuerId, ?_⟩
    constructor
    case clock =>
      intro now' hnow'
      rw [hnow] at hnow'
      cases hnow'
      exact hclock
    case actor => exact hactor.mp (hactorPlain.clone_eq ▸ hfits.actor)
    case subject => exact hsubject.mp (hsubjectPlain.clone_eq ▸ hfits.subject)
    case claim => exact h.isObject_claim.mp hfits.claim
    case occurredAt =>
      intro v now' hv hne hnow'
      rw [hnow] at hnow'
      cases hnow'
      have hgiven : input.occurredAt = some v := by
        rw [h.occurredAt, hv]
        cases v <;> first | rfl | exact absurd rfl hne
      rw [← notAfter_iff hclock]
      have hvalid := hfits.occurredAt
      have hafter := hfits.recordedAfter
      rw [hgiven, Option.getD_some] at hvalid hafter
      exact ⟨hvalid, hafter⟩
    case correlations => exact h.wellFormed_correlations.mp hcorrelations
  · rintro ⟨hissuer, hposed⟩
    have hclock := hposed.clock now hnow
    have htime : NotAfter (input.occurredAt.getD (.str (isoText now))) now := by
      rw [h.occurredAt]
      split
      · exact notAfter_isoText hclock
      · next hgiven =>
        cases hget : get (some request.input) (js "occurred_at") with
        | none => exact notAfter_isoText hclock
        | some v =>
          apply hposed.occurredAt v now hget _ hnow
          rintro rfl
          rw [hget] at hgiven
          exact hgiven rfl
    obtain ⟨hvalid, hafter⟩ := (notAfter_iff hclock).mpr htime
    refine ⟨?_, h.wellFormed_correlations.mpr hposed.correlations⟩
    constructor
    case issuerId => exact hissuer
    case recordedAt => exact hyear.mpr hclock
    case occurredAt => exact hvalid
    case recordedAfter => exact hafter
    case actor => exact hactorPlain.clone_eq.symm ▸ hactor.mpr hposed.actor
    case subject => exact hsubjectPlain.clone_eq.symm ▸ hsubject.mpr hposed.subject
    case claim => exact h.isObject_claim.mpr hposed.claim

end

/-! ### The bundle of a recorded action -/

section

variable {host : Host} {relay : RelayService} {request : ActionRequest} {a : NewAction}
  {parts : ActionParts}

/-- The texts of the issuer are those of the relay. -/
theorem wellFormedText_relayIssuer_iff : (Json.obj (relayIssuer relay)).WellFormedText ↔
    wellFormed relay.issuerId = true ∧ wellFormed relay.key.keyId = true ∧
      wellFormed relay.key.publicKeyPem = true := by
  rw [← encodable_clone_iff, (plain_relayIssuer relay).clone_eq, relayIssuer,
    createIssuerDescriptor, relayExtension]
  simp +decide only [encodable_obj, encodable_str, encodable_clone_iff, wellFormedText_str,
    wellFormedText_obj_iff, wellFormedText_arr_iff, List.forall_mem_cons, List.not_mem_nil,
    false_imp_iff, implies_true, and_true, true_and]
  exact and_self_left

theorem PreparedAction.sections_unsigned (h : PreparedAction host relay request a parts) :
    sectionsOf (parts.unsigned host relay) =
      { issuers := [.obj (relayIssuer relay)]
        events := [.obj parts.event]
        evidence := [.obj parts.evidence]
        relationships := [.obj parts.relationship]
        predecessors := []
        proofs := [] } := by
  have hissuer := (plain_relayIssuer relay).clone_eq
  have hevent := (plain_claimEvent h.event).clone_eq
  have hevidence := (plain_claimEvidence h.evidence).clone_eq
  have hrelationship := (plain_claimRelationship h.relationship).clone_eq
  rw [ActionParts.unsigned, sectionsOf_createEvidenceBundle]
  simp only [List.map_cons, List.map_nil, hissuer, hevent, hevidence, hrelationship]

/-- The objects of a recorded action as they were built. -/
theorem PreparedAction.built (h : PreparedAction host relay request a parts) :
    get (some (.obj parts.event)) (js "event_id") =
        some (.str (js "tpe_claim_" ++ parts.suffix host)) ∧
      get (some (.obj parts.evidence)) (js "evidence_id") =
        some (.str (js "tpev_claim_" ++ parts.suffix host)) ∧
      get (some (.obj parts.relationship)) (js "relationship_id") =
        some (.str (js "tpr_claim_" ++ parts.suffix host)) := by
  obtain ⟨contentDigest, -, hevidence⟩ := bind_eq_ok_iff.mp h.evidence
  have hevent := h.event
  rw [claimEvent] at hevent
  have hrelationship := h.relationship
  rw [claimRelationship] at hrelationship
  exact ⟨(createOutcomeEvent_built hevent).get_str (by decide) rfl,
    (createEvidenceItem_built hevidence).get_str (by decide) rfl,
    (createRelationship_built hrelationship).get_str (by decide) rfl⟩

/-- The ids of the objects differ in their prefixes. -/
theorem PreparedAction.objectIds_nodup (h : PreparedAction host relay request a parts) :
    (sectionsOf (parts.unsigned host relay)).objectIds.Nodup := by
  obtain ⟨hevent, hevidence, hrelationship⟩ := h.built
  have hids : (sectionsOf (parts.unsigned host relay)).objectIds =
      [js "tpe_claim_" ++ parts.suffix host, js "tpev_claim_" ++ parts.suffix host,
        js "tpr_claim_" ++ parts.suffix host] := by
    rw [h.sections_unsigned, Sections.objectIds]
    simp only [idsOf, List.filterMap_cons, List.filterMap_nil, stringId, hevent, hevidence,
      hrelationship, List.singleton_append]
  have hne {s t u : JsString} (hst : s.take 4 ≠ t.take 4) (hs : 4 ≤ s.length) (ht : 4 ≤ t.length) :
      s ++ u ≠ t ++ u := by
    intro heq
    have htake := congrArg (List.take 4) heq
    rw [List.take_append_of_le_length hs, List.take_append_of_le_length ht] at htake
    exact hst htake
  rw [hids]
  simp only [List.nodup_cons, List.mem_cons, List.not_mem_nil, or_false, not_or, not_false_eq_true,
    List.nodup_nil, and_true]
  exact ⟨⟨hne (by decide) (by decide) (by decide), hne (by decide) (by decide) (by decide)⟩,
    hne (by decide) (by decide) (by decide)⟩

theorem wellFormed_safeId (host : Host) (value : JsString) :
    wellFormed (safeId host value) = true := by
  apply wellFormed_of_forall
  intro c hc
  exact toNat_isHexLower (isHexLower_of_mem_safeId hc)

theorem wellFormed_bundleIdOf (host : Host) (actionId : JsString) (revision : Nat) :
    wellFormed (bundleIdOf host actionId revision) = true := by
  have hnumber : wellFormed (padStart 6 (decimal revision)) = true := by
    apply wellFormed_of_forall
    intro c hc
    apply toNat_isHexLower
    rw [isHexLower, Bool.or_eq_true]
    rw [padStart, List.mem_append] at hc
    rcases hc with hc | hc
    · rw [List.eq_of_mem_replicate hc]
      decide
    · exact .inl (isDigit_of_mem_decimal hc)
  rw [bundleIdOf]
  apply wellFormed_append
  · apply wellFormed_append
    · exact wellFormed_append (by decide) (wellFormed_safeId host actionId)
    · decide
  · exact hnumber

/-- The texts that the objects of a recorded action have in common with its payload. -/
theorem PreparedAction.texts (h : PreparedAction host relay request a parts) :
    wellFormed relay.issuerId = true ∧ wellFormed parts.input.actionId = true ∧
      wellFormed parts.timestamp = true ∧ (Json.obj parts.event).WellFormedText ∧
      (Json.obj parts.evidence).WellFormedText ∧ (Json.obj parts.relationship).WellFormedText := by
  obtain ⟨contentDigest, hdigest, hevidence⟩ := bind_eq_ok_iff.mp h.evidence
  have hevent := h.event
  rw [claimEvent] at hevent
  have hrelationship := h.relationship
  rw [claimRelationship] at hrelationship
  have hbuilt := createOutcomeEvent_built hevent
  have htext (key : JsString) {s : JsString}
      (hget : get (some (.obj parts.event)) key = some (.str s)) : wellFormed s = true :=
    (encodable_str s).mp ((encodable_obj _).mp hbuilt.encodable _ (mem_of_member_eq hget)).2
  have hactionId : wellFormed parts.input.actionId = true := by
    obtain ⟨hencodable, -⟩ := encodable_of_digestValue hdigest
    exact (encodable_str _).mp ((encodable_obj _).mp hencodable _ List.mem_cons_self).2
  exact ⟨htext (js "issuer_ref") (hbuilt.get_str (by decide) rfl), hactionId,
    htext (js "recorded_at") (hbuilt.get_str (by decide) rfl),
    wellFormedText_of_encodable hbuilt.encodable,
    wellFormedText_of_encodable (createEvidenceItem_built hevidence).encodable,
    wellFormedText_of_encodable (createRelationship_built hrelationship).encodable⟩

/-- The payload of a recorded action has a digest exactly when the texts of the relay's key and of
the correlations are well formed. -/
theorem PreparedAction.payloadDigest_iff (h : PreparedAction host relay request a parts) :
    (∃ digest, calculatePayloadDigest host.toRuntime (parts.unsigned host relay) = .ok digest) ↔
      wellFormed relay.key.keyId = true ∧ wellFormed relay.key.publicKeyPem = true ∧
        (Json.obj parts.input.correlations).WellFormedText := by
  obtain ⟨hissuerId, hactionId, htimestamp, hevent, hevidence, hrelationship⟩ := h.texts
  have hextension (correlations : Json) :
      (Json.obj (relayExtension [(js "revision", natNumber 1), (js "ruleset", .str refundRuleset),
        (js "correlations", correlations)])).WellFormedText ↔ correlations.WellFormedText := by
    have hnumber : (natNumber 1).WellFormedText := trivial
    rw [relayExtension]
    simp +decide only [wellFormedText_obj_iff, wellFormedText_str, List.forall_mem_cons, hnumber,
      List.not_mem_nil, false_imp_iff, implies_true, and_true, true_and]
  rw [ActionParts.unsigned, (envelopeOk_createEvidenceBundle _).payloadDigest_iff,
    payload_createEvidenceBundle, encodable_bundlePayload_iff]
  simp only [List.forall_mem_singleton, wellFormedText_relayIssuer_iff, hissuerId, hactionId,
    htimestamp, hevent, hevidence, hrelationship, wellFormed_bundleIdOf, hextension, true_and,
    List.not_mem_nil, false_imp_iff, implies_true, and_assoc]

/-- The event of a recorded action has no parents and refers to the evidence beside it. -/
theorem PreparedAction.references_event (h : PreparedAction host relay request a parts) :
    ReferencesOk (sectionsOf (parts.unsigned host relay)) (.obj parts.event) := by
  have hevent := h.event
  rw [claimEvent] at hevent
  have hbuilt := createOutcomeEvent_built hevent
  have hparents : get (some (.obj parts.event)) (js "parent_event_digests") = some (.arr []) :=
    (hbuilt.member_eq (by decide) rfl).trans (by rw [clone_clone, clone_arr]; rfl)
  have hrefs : get (some (.obj parts.event)) (js "evidence_refs") =
      some (.arr [.str (js "tpev_claim_" ++ parts.suffix host)]) :=
    (hbuilt.member_eq (by decide) rfl).trans (by rw [clone_clone, clone_arr, map_clone_str]; rfl)
  constructor
  · rw [hparents]
    exact List.forall_mem_nil _
  · rw [hrefs, itemsOf, List.forall_mem_singleton, isOneOf_str, h.sections_unsigned]
    exact mem_idsOf.mpr ⟨_, List.mem_cons_self, h.built.2.1⟩

/-- The relationship of a recorded action joins the objects beside it. -/
theorem PreparedAction.endpoints_relationship (h : PreparedAction host relay request a parts) :
    EndpointsOk (sectionsOf (parts.unsigned host relay)) (.obj parts.relationship) := by
  have hrelationship := h.relationship
  rw [claimRelationship] at hrelationship
  have hbuilt := createRelationship_built hrelationship
  have hfrom : get (some (.obj parts.relationship)) (js "from_ref") =
      some (.str (ObjectKind.evidence.ref (js "tpev_claim_" ++ parts.suffix host))) :=
    hbuilt.get_str (by decide) rfl
  have hto : get (some (.obj parts.relationship)) (js "to_ref") =
      some (.str (ObjectKind.event.ref (js "tpe_claim_" ++ parts.suffix host))) :=
    hbuilt.get_str (by decide) rfl
  simp only [EndpointsOk, List.forall_mem_cons, hfrom, hto, isOneOf_str]
  refine ⟨ObjectKind.ref_mem_refs _ ?_, ObjectKind.ref_mem_refs _ ?_, List.forall_mem_nil _⟩
  · rw [h.sections_unsigned]
    exact mem_idsOf.mpr ⟨_, List.mem_cons_self, h.built.2.1⟩
  · rw [h.sections_unsigned]
    exact mem_idsOf.mpr ⟨_, List.mem_cons_self, h.built.1⟩

theorem PreparedAction.now_eq (h : PreparedAction host relay request a parts) :
    ∃ now, request.now = some now ∧ parts.timestamp = isoText now := by
  have hnow := h.now
  cases hrequest : request.now with
  | none =>
    rw [hrequest] at hnow
    cases hnow
  | some now =>
    rw [hrequest] at hnow
    exact ⟨now, rfl, (Except.ok.inj hnow).symm⟩

/-- The content of a recorded action is accepted exactly when the relay is listed and the request
is well posed. -/
theorem PreparedAction.contentOk_iff (h : PreparedAction host relay request a parts) :
    ContentOk host.toRuntime (parts.unsigned host relay) ↔
      relay.Listed ∧ request.WellPosed := by
  obtain ⟨now, hnow, htimestamp⟩ := h.now_eq
  have hchecked := checkAction_checked h.checked
  have hsections := h.sections_unsigned
  obtain ⟨hevent, hevidence, hrelationship⟩ := h.built
  have hissuerIds : (sectionsOf (parts.unsigned host relay)).issuerIds = [relay.issuerId] := by
    rw [hsections]
    rfl
  have hfits : (ClaimFits relay parts.input (isoText now) ∧
      (Json.obj parts.input.correlations).WellFormedText) ↔
        relay.issuerId ≠ [] ∧ request.WellPosed := claimFits_iff hchecked hnow
  have heventOk := claimEvent_ok_iff h.event
  rw [htimestamp] at heventOk
  constructor
  · intro hok
    have hissuers := hok.issuers
    have hevents := hok.events
    rw [hissuerIds] at hevents
    rw [hsections] at hissuers hevents
    obtain ⟨hissuerId, hkey⟩ := issuerOk_relayIssuer_iff.mp (hissuers _ List.mem_cons_self)
    obtain ⟨hkeyText, hpemText, hcorrelations⟩ := h.payloadDigest_iff.mp hok.payloadDigest
    have hclaim := heventOk.mp (hevents _ List.mem_cons_self)
    obtain ⟨hkeyId, hpem⟩ := keyOk_relayKey_iff.mp hkey
    exact ⟨⟨hissuerId, hkeyId, hpem, hkeyText, hpemText⟩, (hfits.mp ⟨hclaim, hcorrelations⟩).2⟩
  · rintro ⟨hlisted, hposed⟩
    obtain ⟨hclaim, hcorrelations⟩ := hfits.mpr ⟨hlisted.issuerId, hposed⟩
    constructor
    case envelope => exact envelopeOk_createEvidenceBundle _
    case payload =>
      rw [ActionParts.unsigned, payload_createEvidenceBundle, payloadOk_bundlePayload_iff]
      refine ⟨?_, hchecked.actionId, ?_⟩
      · exact List.append_ne_nil_of_left_ne_nil (List.append_ne_nil_of_left_ne_nil
          (List.append_ne_nil_of_left_ne_nil (by decide) _) _) _
      · show validTimestampText parts.timestamp = true
        rw [htimestamp]
        exact hclaim.recordedAt
    case payloadDigest =>
      exact h.payloadDigest_iff.mpr ⟨hlisted.keyTexts.1, hlisted.keyTexts.2, hcorrelations⟩
    case objectIds => exact h.objectIds_nodup
    case issuerIds =>
      rw [hissuerIds]
      exact List.nodup_singleton _
    case events =>
      rw [hissuerIds, hsections, List.forall_mem_singleton]
      exact heventOk.mpr hclaim
    case evidence =>
      rw [hissuerIds, hsections, List.forall_mem_singleton]
      exact (claimEvidence_ok_iff h.evidence).mpr hlisted.issuerId
    all_goals rw [hsections]
    case issuers =>
      rw [List.forall_mem_singleton, issuerOk_relayIssuer_iff, keyOk_relayKey_iff]
      exact ⟨hlisted.issuerId, hlisted.keyId, hlisted.publicKey⟩
    case relationships =>
      rw [List.forall_mem_singleton]
      exact claimRelationship_ok h.relationship
    case references =>
      rw [List.forall_mem_singleton]
      exact hsections ▸ h.references_event
    case endpoints =>
      rw [List.forall_mem_singleton]
      exact hsections ▸ h.endpoints_relationship
    case predecessors => exact List.forall_mem_nil _
    case distinctPredecessors => exact ⟨[], rfl, List.nodup_nil⟩

/-- The ids of the proofs that `signTargets` makes. -/
theorem Signs.ids {bundle : Members} {targets : List Members} {createdAt proofIds : JsString}
    {proofs : List Json} (h : Signs host relay bundle targets createdAt proofIds proofs) :
    idsOf (js "proof_id") proofs =
      (List.range targets.length).map fun i ↦ proofIds ++ js "_" ++ decimal (i + 1) := by
  have hid {i : Nat} {proof : Json} (hproof : proofs[i]? = some proof) :
      stringId (js "proof_id") proof = some (proofIds ++ js "_" ++ decimal (i + 1)) := by
    have hlt : i < targets.length := h.length_eq ▸ (List.getElem?_eq_some_iff.mp hproof).1
    obtain ⟨proof', hproof', hcreated⟩ := h.created i _ (List.getElem?_eq_getElem hlt)
    rw [hproof] at hproof'
    cases hproof'
    obtain ⟨digest, signature, rfl, -⟩ := createSignatureProof_shape hcreated
    rfl
  have hall : proofs.map (stringId (js "proof_id")) =
      (List.range targets.length).map fun i ↦ some (proofIds ++ js "_" ++ decimal (i + 1)) := by
    apply List.ext_getElem?
    intro i
    rw [List.getElem?_map, List.getElem?_map, ← h.length_eq]
    by_cases hlt : i < proofs.length
    · rw [List.getElem?_eq_getElem hlt, List.getElem?_range hlt, Option.map_some, Option.map_some,
        hid (List.getElem?_eq_getElem hlt)]
    · rw [List.getElem?_eq_none (by omega), List.getElem?_eq_none (by simpa using hlt)]
      rfl
  have hmap : idsOf (js "proof_id") proofs =
      (proofs.map (stringId (js "proof_id"))).filterMap id := by
    rw [List.filterMap_map]
    rfl
  rw [hmap, hall, List.filterMap_map, ← List.filterMap_eq_map]
  rfl

theorem decimal_injective : Function.Injective decimal := by
  intro m n h
  rw [← digitsValue_decimal m, ← digitsValue_decimal n, h]

/-- The proofs that are made together have different ids. -/
theorem Signs.ids_nodup {bundle : Members} {targets : List Members} {createdAt proofIds : JsString}
    {proofs : List Json} (h : Signs host relay bundle targets createdAt proofIds proofs) :
    (idsOf (js "proof_id") proofs).Nodup := by
  rw [h.ids]
  apply List.nodup_range.map
  intro i j heq
  exact Nat.succ.inj (decimal_injective (List.append_cancel_left heq))

/-- A proof that the relay makes for its bundle is accepted exactly when its verification method
reads back. -/
theorem Signs.accepted_iff {bundle : Members} {targets : List Members}
    {createdAt proofIds : JsString} {proofs : List Json}
    (h : Signs host relay bundle targets createdAt proofIds proofs)
    (hok : ContentOk host.toRuntime bundle) (hissuer : .obj (relayIssuer relay) ∈
      (sectionsOf bundle).issuers) (htargets : ∀ target ∈ targets, Requestable bundle target)
    (hmatch : MatchingKey host.toRuntime (relayKey relay) relay.key.privateKeyPem)
    (hcreated : validTimestampText createdAt = true) {proof : Json} (hproof : proof ∈ proofs) :
    ProofAccepted host.toRuntime bundle proof ↔
      0x23 ∉ relay.key.keyId ∧ ∀ c ∈ relay.issuerId, isDot c = true := by
  obtain ⟨i, target, htarget, hsigned⟩ := h.exists_target hproof
  have hkeys : relayKey relay ∈ itemsOf (get (some (.obj (relayIssuer relay))) (js "keys")) := by
    rw [get_relayIssuer_keys]
    exact List.mem_cons_self
  have hproofId : proofIds ++ js "_" ++ decimal (i + 1) ≠ [] :=
    List.append_ne_nil_of_left_ne_nil (List.append_ne_nil_of_right_ne_nil _ (by decide)) _
  have hinside : InsideValidity (relayKey relay) createdAt := ⟨nofun, nofun⟩
  let request := signingRequest relay bundle createdAt proofIds i target
  have hbundle : ContentOk host.toRuntime request.bundle := hok
  obtain ⟨digest, signature, hproof', hiff⟩ := createSignatureProof_accepted_iff hbundle
    (htargets target htarget) hissuer get_relayIssuer_issuerId hkeys rfl hmatch hproofId hcreated
    hinside
  rw [hsigned] at hproof'
  cases hproof'
  exact hiff

/-- The targets of a recorded action name its evidence and its event. -/
theorem PreparedAction.requestable (h : PreparedAction host relay request a parts) :
    ∀ target ∈ [targetOf (js "EVIDENCE_ITEM") (js "tpev_claim_" ++ parts.suffix host),
      targetOf (js "OUTCOME_EVENT") (js "tpe_claim_" ++ parts.suffix host)],
      Requestable (parts.unsigned host relay) target := by
  obtain ⟨hevent, hevidence, -⟩ := h.built
  have hsections := h.sections_unsigned
  have hitems : (sectionsOf (parts.unsigned host relay)).evidence = [.obj parts.evidence] ∧
      (sectionsOf (parts.unsigned host relay)).events = [.obj parts.event] := by
    rw [hsections]
    exact ⟨rfl, rfl⟩
  rw [List.forall_mem_cons, List.forall_mem_singleton]
  constructor
  · refine .object rfl rfl rfl rfl ?_ hevidence
    show _ ∈ (sectionsOf (parts.unsigned host relay)).evidence
    rw [hitems.1]
    exact List.mem_cons_self
  · refine .object rfl rfl rfl rfl ?_ hevent
    show _ ∈ (sectionsOf (parts.unsigned host relay)).events
    rw [hitems.2]
    exact List.mem_cons_self

/-- The bundle of a recorded action is accepted exactly when the relay is well named and the
request is well posed. -/
theorem PreparedAction.accepted_iff (h : PreparedAction host relay request a parts)
    (hmatch : MatchingKey host.toRuntime (relayKey relay) relay.key.privateKeyPem) :
    Accepted host.toRuntime a.bundle ↔ relay.WellNamed ∧ request.WellPosed := by
  obtain ⟨now, hnow, htimestamp⟩ := h.now_eq
  have henvelope : EnvelopeOk (.obj (parts.unsigned host relay)) :=
    envelopeOk_createEvidenceBundle _
  have hissuer : .obj (relayIssuer relay) ∈ (sectionsOf (parts.unsigned host relay)).issuers := by
    rw [h.sections_unsigned]
    exact List.mem_cons_self
  have hsigned (hok : ContentOk host.toRuntime (parts.unsigned host relay)) {proof : Json}
      (hproof : proof ∈ parts.proofs) :
      ProofAccepted host.toRuntime (parts.unsigned host relay) proof ↔
        0x23 ∉ relay.key.keyId ∧ ∀ c ∈ relay.issuerId, isDot c = true := by
    have hcreated : validTimestampText parts.timestamp = true := by
      rw [htimestamp, validTimestampText_isoText]
      exact (h.contentOk_iff.mp hok).2.clock now hnow
    exact h.signs.accepted_iff hok hissuer h.requestable hmatch hcreated hproof
  rw [h.bundle]
  constructor
  · intro haccepted
    have hok := ContentOk.of_withProofs henvelope haccepted.toContentOk
    obtain ⟨hlisted, hposed⟩ := h.contentOk_iff.mp hok
    obtain ⟨i, proof, hproof, -⟩ := h.signs.exists_proof List.mem_cons_self
    have hproofs := haccepted.proofs
    rw [sectionsOf_withProofs] at hproofs
    have hmem := (proofAccepted_withProofs henvelope _ proof).mp
      (hproofs proof (List.mem_append_right _ hproof))
    obtain ⟨hsharp, hline⟩ := (hsigned hok hproof).mp hmem
    exact ⟨{ hlisted with issuerLine := hline, keySharp := hsharp }, hposed⟩
  · rintro ⟨hnamed, hposed⟩
    have hok := h.contentOk_iff.mpr ⟨hnamed.toListed, hposed⟩
    have hnone : (sectionsOf (parts.unsigned host relay)).proofs = [] := by
      rw [h.sections_unsigned]
    have hunsigned : Accepted host.toRuntime (parts.unsigned host relay) :=
      { hok with
        proofs := by
          rw [hnone]
          exact List.forall_mem_nil _
        proofIds := by
          rw [hnone]
          exact List.nodup_nil }
    apply (accepted_withProofs_iff hunsigned).mpr
    refine ⟨fun proof hproof ↦ (hsigned hok hproof).mpr ⟨hnamed.keySharp, hnamed.issuerLine⟩, ?_⟩
    rw [hnone, List.nil_append]
    exact h.signs.ids_nodup

/-- A verified bundle of a recorded action is complete. -/
theorem PreparedAction.valid_iff (h : PreparedAction host relay request a parts) :
    (∃ result, verifyBundle host.toRuntime (.obj a.bundle) = .ok result ∧
      result.status = .valid) ↔ Accepted host.toRuntime a.bundle := by
  constructor
  · rintro ⟨result, hresult, hstatus⟩
    have hne : result.status ≠ .invalid := by
      rw [hstatus]
      nofun
    obtain ⟨rt', members, hread, hok, -⟩ := verifyBundle_accepts.mp ⟨hresult, hne⟩
    cases hread
    exact hok
  · intro hok
    have haccepts : verifyBundle host.toRuntime (.obj a.bundle) =
        .ok (conclude host.toRuntime a.bundle []) ∧
          (conclude host.toRuntime a.bundle []).status ≠ .invalid :=
      verifyBundle_accepts.mpr ⟨_, _, rfl, hok, rfl⟩
    refine ⟨_, haccepts.1, ?_⟩
    have hreasons : incompleteReasons (sectionsOf a.bundle) = [] := by
      obtain ⟨i, proof, hproof, -⟩ := h.signs.exists_proof List.mem_cons_self
      have hproofs : parts.proofs.isEmpty = false :=
        List.isEmpty_eq_false_iff.mpr (List.ne_nil_of_mem hproof)
      rw [h.sections, incompleteReasons, hproofs]
      rfl
    unfold conclude
    simp only [hreasons, List.isEmpty_nil, if_true]

end

/-- The first revision of a recorded action is valid exactly when the relay is well named and the
request is well posed. -/
theorem createAction_valid_iff {host : Host} {relay : RelayService} {request : ActionRequest}
    {response : Response} {s t : Store}
    (hmatch : MatchingKey host.toRuntime (relayKey relay) relay.key.privateKeyPem)
    (hrun : recordAction host relay request s = (.resolved response, t)) :
    ∃ bundle, revisionOf (t.actions (actionKey host response.stored.metadata.actionId)) 1 =
        some bundle ∧
      ((∃ result, verifyBundle host.toRuntime bundle = .ok result ∧ result.status = .valid) ↔
        relay.WellNamed ∧ request.WellPosed) := by
  obtain ⟨a, hprepared, hmetadata, hholds⟩ := recordAction_resolved hrun
  obtain ⟨parts, h⟩ := prepareAction_prepared hprepared
  have hkey : response.stored.metadata.actionId = a.actionId := by
    rw [hmetadata]
    rfl
  rw [hkey]
  refine ⟨.obj a.bundle, ?_, h.valid_iff.trans (h.accepted_iff hmatch)⟩
  rw [← h.plain.clone_eq]
  exact hholds.bundle

/-! ### A claim that is an array -/

/-- SHA-256 of the texts of the two requests below, by their byte sums. -/
def recordingHashes : List (Nat × String) :=
  [(146, "f55ff16f66f43360266b95db6f8fec01d76031054306ae4a4b380598f6cfd114"),
    (11849, "e52a9ebde2d964033ed536b9e8e1b95daa369a0287fc2b3c2d719312f2c24e6d"),
    (50741, "60e11993076cebaa36c4f72dfa9c7624fc29a4159d5d83e1b1c6061e3425141d"),
    (50658, "108b14e295d6e2d07573375005ebc739ab03e050e8ddb1efd20ca4be3442aad7"),
    (17018, "544c26fc4b40bad78eea7bd04729a588cae6a5457870f30ccefa66801cae3049"),
    (216533, "2d55a6012585dd6c9fa63f40acb54032f15f449965486a7f888f6c6b9996afb7"),
    (11785, "ec332ff2efbdae42adb881b74368dcc9eba55a98bcf6856aaacf4b72a32de56f"),
    (51128, "dd8bf1dcc939ecd7a33ca736acce0b3fc6f7d22eba87bf7a73e8f1152abc9d2c"),
    (50594, "5b4a554ee3dff62268832d27878f36fbedf800e2a43074cf7867633f0b716af7"),
    (217400, "87334964e01512f579c62e0ea265849702ddf62709885c55f897ff307a51dd10")]

/-- The signatures of the sample key for the two requests, by the byte sum of what is signed. -/
def recordingSignatures : List (Nat × String) :=
  [(18297,
      "gHUc8rok_-KChJJWa5zzVxV0hsNxWlGzFBe6870ncdIzvSWVWf27LN0qvoqDS3dHp7iqg61CF4yyz2tiq0oEDA"),
    (18462,
      "YgtGfHvIHXOxKRKPfjpwvWQgEsDzj37f9dcuM8g67Kfy-nmlbydNGbNBVnvvhvcVE2rGaeLWmvMwg96QRBDLDw"),
    (18927,
      "iZEte0zhvY7C5ydnYF5I0ACaDOx2V97NggqNUFDyEeLt_feai4hEMgFtR8fC2BOYfk9dqXiFIQfO8BCatk_jDw"),
    (18376,
      "JlGSotfmztvAhPMbt-bRDiH3IXdZPDZU48PscDPQbI6eaT1spO-YNUOIGnzxR38B3sQpIl9qdBkDWHl9T11gDQ")]

/-- The signature of an input under the sample key; of an input that is not signed below, a text
of the length of a signature. -/
def recordingSignature (input : List UInt8) : List UInt8 :=
  let signature := decode64 (js (entryOf recordingSignatures (input.map UInt8.toNat).sum))
  if signature.length = 64 then signature else List.replicate 64 0

/-- The sample host on the two requests. -/
def recordingHost : Host :=
  { sampleHost with
    sha256 := fun bytes ↦ digestOf (entryOf recordingHashes (bytes.map UInt8.toNat).sum)
    sign := fun input _ ↦ recordingSignature input
    verify := fun input _ signature ↦ .ok (decide (signature = recordingSignature input)) }

/-- The sample request with a claim. -/
def claimAction (claim : Json) : ActionRequest :=
  { sampleAction (jsonText "re_1") with
    input := .obj (membersOf (some (sampleAction (jsonText "re_1")).input) ++
      [(js "claim", claim)]) }

/-- The status of the first revision that the request with the given claim leaves in an empty
store. -/
def firstStatus (claim : Json) : Option Status :=
  ((recordAction recordingHost sampleRelay (claimAction claim)).result .empty).bind fun recorded ↦
    (revisionOf (recorded.2.actions
      (actionKey recordingHost recorded.1.stored.metadata.actionId)) 1).bind fun bundle ↦
        (verifyBundle recordingHost.toRuntime bundle).toOption.map Verification.status

private theorem claimFacts :
    ((recordAction recordingHost sampleRelay (claimAction (.obj []))).result .empty).isSome = true ∧
    firstStatus (.arr []) = some .invalid := by
  decide +kernel

private theorem recordingHost_matches :
    MatchingKey recordingHost.toRuntime (relayKey sampleRelay) sampleRelay.key.privateKeyPem := by
  have hlength (input : List UInt8) : (recordingSignature input).length = 64 := by
    unfold recordingSignature
    dsimp only
    split
    · next h => exact h
    · rfl
  have hprivate : recordingHost.createPrivateKey sampleRelay.key.privateKeyPem =
      .ok ⟨js "ed25519", []⟩ := by simp [recordingHost, sampleHost, sampleRelay]
  have hpublic : recordingHost.createPublicKey (get (some (relayKey sampleRelay))
      (js "public_key")) = .ok ⟨js "ed25519", []⟩ := by
    have hpem : get (some (relayKey sampleRelay)) (js "public_key") =
        some (.str relayPublicPem) := rfl
    rw [hpem]
    simp [recordingHost, sampleHost, isText]
  refine ⟨_, _, hprivate, rfl, hpublic, rfl, fun input ↦ ⟨hlength input, ?_⟩⟩
  exact congrArg Except.ok (decide_eq_true rfl)

private theorem sampleRelay_wellNamed : sampleRelay.WellNamed where
  issuerId := by decide
  keyId := by decide
  publicKey := by decide
  keyTexts := by decide
  issuerLine := List.all_eq_true.mp (by decide)
  keySharp := by decide

private theorem claimAction_wellPosed : (claimAction (.obj [])).WellPosed := by
  have hnamed {entityType entityId : String} (htype : js entityType ≠ [])
      (hid : js entityId ≠ []) : EntityNamed (some (sampleEntity entityType entityId)) := by
    constructor
    · intro heq
      exact htype (Json.str.inj (Option.some.inj heq))
    · intro heq
      exact hid (Json.str.inj (Option.some.inj heq))
  constructor
  case clock =>
    intro now hnow
    obtain rfl := Option.some.inj hnow
    decide
  case actor => exact hnamed (by decide : js "AI_AGENT" ≠ []) (by decide : js "agent-1" ≠ [])
  case subject => exact hnamed (by decide : js "REFUND" ≠ []) (by decide : js "re_1" ≠ [])
  case claim => rfl
  case occurredAt =>
    intro v now hv
    cases hv
  case correlations =>
    intro v hv
    obtain rfl := Option.some.inj hv
    rw [wellFormedText_obj_iff, List.forall_mem_singleton, jsonText, wellFormedText_str]
    decide

/-- The first revision of the sample request is valid. -/
theorem createAction_valid_iff_sample :
    ∃ response t bundle, recordAction recordingHost sampleRelay (claimAction (.obj [])) .empty =
        (.resolved response, t) ∧
      revisionOf (t.actions (actionKey recordingHost response.stored.metadata.actionId)) 1 =
        some bundle ∧
      ∃ result, verifyBundle recordingHost.toRuntime bundle = .ok result ∧
        result.status = .valid := by
  obtain ⟨⟨response, t⟩, hrun⟩ := Option.isSome_iff_exists.mp claimFacts.1
  rw [Call.result_eq_some] at hrun
  obtain ⟨bundle, hbundle, hiff⟩ := createAction_valid_iff recordingHost_matches hrun
  exact ⟨response, t, bundle, hrun, hbundle,
    hiff.mpr ⟨sampleRelay_wellNamed, claimAction_wellPosed⟩⟩

/-- A request whose claim is an array is recorded, and its first revision is invalid. -/
theorem arrayClaim_invalid :
    MatchingKey recordingHost.toRuntime (relayKey sampleRelay) sampleRelay.key.privateKeyPem ∧
    ∃ response t bundle, recordAction recordingHost sampleRelay (claimAction (.arr [])) .empty =
        (.resolved response, t) ∧
      revisionOf (t.actions (actionKey recordingHost response.stored.metadata.actionId)) 1 =
        some bundle ∧
      ∃ result, verifyBundle recordingHost.toRuntime bundle = .ok result ∧
        result.status = .invalid := by
  obtain ⟨⟨response, t⟩, hrun, hstatus⟩ := Option.bind_eq_some_iff.mp claimFacts.2
  rw [Call.result_eq_some] at hrun
  obtain ⟨bundle, hbundle, hinvalid⟩ := Option.bind_eq_some_iff.mp hstatus
  exact ⟨recordingHost_matches, response, t, bundle, hrun, hbundle, exists_of_status hinvalid⟩

end TimeProofs.Relay
