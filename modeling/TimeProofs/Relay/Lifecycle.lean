import TimeProofs.Relay.Packet

/-!
# The lifecycle of the packet and the verdict engine

`packet.mjs:2–13` and `verdict-engine/src/index.mjs:5–18` order the events and decide which of
them are signed, each on its own. On a bundle that the verifier does not find INVALID the orders
are the same. A packet calls an event signed that is named by a proof of any issuer.
-/

namespace TimeProofs.Relay

open TimeProofs.Base TimeProofs.Json TimeProofs.Core TimeProofs.VerdictEngine

/-- The id of an event. -/
def eventIdOf (event : Json) : Option Json := get (some event) (js "event_id")

/-- A proof names an event as its target. -/
def NamesEvent (event proof : Json) : Prop :=
  get (get (some proof) (js "target")) (js "target_type") = some (.str (js "OUTCOME_EVENT")) ∧
    get (get (some proof) (js "target")) (js "target_id") = eventIdOf event

/-- An event that a proof names is named by a proof of its own issuer. -/
def NamedByOwnIssuer (bundle : Members) (event : Json) : Prop :=
  (∃ proof ∈ (sectionsOf bundle).proofs, NamesEvent event proof) →
    ∃ proof ∈ (sectionsOf bundle).proofs, NamesEvent event proof ∧
      get (some proof) (js "issuer_ref") = get (some event) (js "issuer_ref")

/-- An event of an accepted bundle has a time and an id. -/
theorem lifecycleTime_accepted {rt : Runtime} {issuerIds : List JsString} {event : Json}
    (h : EventOk rt issuerIds event) :
    ∃ time, lifecycleTime rt event = .ok (some time, event) ∧
      ∃ s, get (some event) (js "occurred_at") = some (.str s) ∧
        ((readTimestamp s).map parsedTime).getD 0 = time := by
  obtain ⟨s, hs, hvalid⟩ := validUtcTimestamp_iff.mp h.occurredAt
  obtain ⟨f, hf, -⟩ := (validTimestampText_iff s).mp hvalid
  refine ⟨parsedTime f, ?_, s, hs, ?_⟩
  · have hparse :
        dateParseOf rt (get (some event) (js "occurred_at")) = .ok (some (parsedTime f)) := by
      rw [hs, dateParseOf, textOf, toText, Except.map, dateParse, if_pos hvalid, hf]
      rfl
    unfold lifecycleTime
    split
    · cases hs
    · rw [hparse]
      rfl
  · rw [hf]
    rfl

/-- The two comparisons are one and the same. -/
theorem compareLifecycle_eq {rt : Runtime} {left right : Json} {x y : Int} {s t : JsString}
    (hs : get (some left) (js "occurred_at") = some (.str s))
    (ht : get (some right) (js "occurred_at") = some (.str t))
    (hx : ((readTimestamp s).map parsedTime).getD 0 = x)
    (hy : ((readTimestamp t).map parsedTime).getD 0 = y) :
    compareLifecycle rt (some x, left) (some y, right) = compareEvents rt left right := by
  unfold compareLifecycle compareEvents compareTimestamps
  simp only [hs, ht, hx, hy]

/-- The lifecycle is ordered as the verdict engine orders the events. -/
theorem sortLifecycle_eq {rt : Runtime} {bundle : Members} (h : Accepted rt bundle) :
    sortLifecycle rt (sectionsOf bundle).events =
      .ok (chronological rt (sectionsOf bundle).events) := by
  have htime : ∀ event ∈ (sectionsOf bundle).events, ∃ time,
      lifecycleTime rt event = .ok (some time, event) ∧
        ∃ s, get (some event) (js "occurred_at") = some (.str s) ∧
          ((readTimestamp s).map parsedTime).getD 0 = time :=
    fun event hevent ↦ lifecycleTime_accepted (h.events event hevent)
  choose! time htimed htext using htime
  unfold sortLifecycle
  split
  · next hlength =>
    unfold chronological
    match hevents : (sectionsOf bundle).events with
    | [] => rfl
    | [event] => rfl
    | first :: second :: rest =>
      rw [hevents] at hlength
      simp at hlength
  · have hcollect : collect ((sectionsOf bundle).events.map (lifecycleTime rt)) =
        .ok ((sectionsOf bundle).events.map fun event ↦ (some (time event), event)) := by
      rw [collect_eq_ok, List.map_map]
      exact List.map_congr_left htimed
    have hsorted := List.map_insertionSort
      (fun left right ↦ compareEvents rt left right ≤ 0)
      (fun left right ↦ compareLifecycle rt left right ≤ 0)
      (fun event ↦ (some (time event), event)) (sectionsOf bundle).events (by
        intro left hleft right hright
        obtain ⟨s, hs, hx⟩ := htext left hleft
        obtain ⟨t, ht, hy⟩ := htext right hright
        rw [compareLifecycle_eq hs ht hx hy])
    rw [hcollect, Except.map, ← hsorted, List.map_map]
    exact congrArg Except.ok (List.map_id _)

theorem signed_iff {rt : Runtime} {bundle : Members} (h : Accepted rt bundle) {event : Json}
    (hevent : event ∈ (sectionsOf bundle).events) {verification : Verification}
    (hproofs : verification.validProofs = (sectionsOf bundle).proofs.map validEntry) :
    (lifecycleEntry verification event).signed = true ↔
      ∃ proof ∈ (sectionsOf bundle).proofs, NamesEvent event proof := by
  obtain ⟨id, hid, -⟩ := isNonEmptyString_iff.mp
    ((h.events event hevent).texts "event_id" (by decide))
  simp only [lifecycleEntry, hproofs, List.any_map, List.any_eq_true, Function.comp_apply,
    validEntry, Bool.and_eq_true, isText_iff, hid, strictEqual_str, NamesEvent, eventIdOf]

theorem covers_iff {rt : Runtime} {bundle : Members} (h : Accepted rt bundle) {event : Json}
    (hevent : event ∈ (sectionsOf bundle).events) {verification : Verification}
    (hproofs : verification.validProofs = (sectionsOf bundle).proofs.map validEntry) :
    proofCoversEvent verification.validProofs event = true ↔
      ∃ proof ∈ (sectionsOf bundle).proofs, NamesEvent event proof ∧
        get (some proof) (js "issuer_ref") = get (some event) (js "issuer_ref") := by
  obtain ⟨issuerId, -, hissuer⟩ := isOneOf_iff.mp (h.events event hevent).issuerRef
  obtain ⟨id, hid, -⟩ := isNonEmptyString_iff.mp
    ((h.events event hevent).texts "event_id" (by decide))
  simp only [proofCoversEvent, hproofs, List.any_map, List.any_eq_true, Function.comp_apply,
    validEntry, Bool.and_eq_true, isText_iff, hid, hissuer, strictEqual_str, NamesEvent, eventIdOf]
  constructor
  · rintro ⟨proof, hproof, ⟨hown, htype⟩, htarget⟩
    exact ⟨proof, hproof, ⟨htype, htarget⟩, hown⟩
  · rintro ⟨proof, hproof, ⟨htype, htarget⟩, hown⟩
    exact ⟨proof, hproof, ⟨hown, htype⟩, htarget⟩

/-- The events of an accepted bundle have distinct ids. -/
theorem eventIds_nodup {rt : Runtime} {bundle : Members} (h : Accepted rt bundle) :
    ((sectionsOf bundle).events.map eventIdOf).Nodup := by
  have hobjectIds := h.objectIds
  rw [Sections.objectIds, List.nodup_append, List.nodup_append] at hobjectIds
  apply nodup_map_get
  · intro event hevent
    exact (h.events event hevent).texts "event_id" (by decide)
  · exact hobjectIds.1

/-- A verification that is not INVALID lists the proofs of an accepted bundle. -/
theorem verification_accepted {rt : Runtime} {bundle : Members} {verification : Verification}
    (h : verifyBundle rt (.obj bundle) = .ok verification) (hs : verification.status ≠ .invalid) :
    verification.validProofs = (sectionsOf bundle).proofs.map validEntry ∧ Accepted rt bundle := by
  obtain ⟨rt', members, hread, haccepted, rfl⟩ := verifyBundle_accepts.mp ⟨h, hs⟩
  cases hread
  exact ⟨haccepted.validProofs_eq, haccepted⟩

/-- A packet of an accepted bundle has the events in the order of the verdict engine. -/
theorem buildOutcomePacket_accepted {rt : Runtime} {bundle : Members} (h : Accepted rt bundle)
    (verification : Verification) (evaluation : Evaluation) (generatedAt : JsString) :
    ∃ packet, buildOutcomePacket rt bundle verification evaluation generatedAt = .ok packet ∧
      packet.lifecycle =
        (chronological rt (sectionsOf bundle).events).map (lifecycleEntry verification) := by
  rw [buildOutcomePacket, sortLifecycle_eq h]
  exact ⟨_, rfl, rfl⟩

/-- The lifecycle has each event once, in the order of the verdict engine, and calls exactly the
events signed that the verdict engine finds covered, as long as an event that is named by proofs
is named by one of its own issuer. -/
theorem lifecycle_agrees_iff {rt : Runtime} {bundle : Members} {verification : Verification}
    (h : verifyBundle rt (.obj bundle) = .ok verification) (hs : verification.status ≠ .invalid)
    (evaluation : Evaluation) (generatedAt : JsString) :
    ∃ packet, buildOutcomePacket rt bundle verification evaluation generatedAt = .ok packet ∧
      packet.lifecycle.map LifecycleEntry.eventId =
        (chronological rt (sectionsOf bundle).events).map eventIdOf ∧
      (chronological rt (sectionsOf bundle).events).Perm (sectionsOf bundle).events ∧
      (packet.lifecycle.map LifecycleEntry.eventId).Nodup ∧
      ((∀ event ∈ (sectionsOf bundle).events, ∀ entry ∈ packet.lifecycle,
          entry.eventId = eventIdOf event →
          (entry.signed = true ↔ proofCoversEvent verification.validProofs event = true)) ↔
        ∀ event ∈ (sectionsOf bundle).events, NamedByOwnIssuer bundle event) := by
  obtain ⟨hproofs, haccepted⟩ := verification_accepted h hs
  obtain ⟨packet, hpacket, hlifecycle⟩ :=
    buildOutcomePacket_accepted haccepted verification evaluation generatedAt
  have hperm : (chronological rt (sectionsOf bundle).events).Perm (sectionsOf bundle).events :=
    List.perm_insertionSort _ _
  have hevents : ((sectionsOf bundle).events.map eventIdOf).Nodup :=
    eventIds_nodup haccepted
  have hdistinct : ((chronological rt (sectionsOf bundle).events).map eventIdOf).Nodup :=
    (hperm.map eventIdOf).nodup_iff.mpr hevents
  have hids : packet.lifecycle.map LifecycleEntry.eventId =
      (chronological rt (sectionsOf bundle).events).map eventIdOf := by
    rw [hlifecycle, List.map_map]
    rfl
  refine ⟨packet, hpacket, hids, hperm, by rwa [hids], ?_⟩
  rw [hlifecycle]
  constructor
  · intro hagree event hevent hnamed
    have hentry : lifecycleEntry verification event ∈
        (chronological rt (sectionsOf bundle).events).map (lifecycleEntry verification) :=
      List.mem_map_of_mem (hperm.mem_iff.mpr hevent)
    apply (covers_iff haccepted hevent hproofs).mp
    apply (hagree event hevent _ hentry rfl).mp
    exact (signed_iff haccepted hevent hproofs).mpr hnamed
  · intro hown event hevent entry hentry hid
    obtain ⟨named, hnamed, rfl⟩ := List.mem_map.mp hentry
    -- distinct ids: the entry of this id is the entry of this event
    obtain rfl : named = event :=
      List.inj_on_of_nodup_map hevents (hperm.mem_iff.mp hnamed) hevent hid
    rw [signed_iff haccepted hevent hproofs, covers_iff haccepted hevent hproofs]
    constructor
    · exact hown named hevent
    · rintro ⟨proof, hproof, htarget, -⟩
      exact ⟨proof, hproof, htarget⟩

/-! ### A proof of another issuer -/

/-- The sample issuer under the id of a gateway. -/
def gatewayIssuer : Json :=
  .obj ((membersOf (some sampleIssuer)).map fun m ↦
    if m.1 = js "issuer_id" then (m.1, jsonText "gw") else m)

/-- The settled event of the provider. -/
def settledEvent : Json :=
  sampleEvent "e1" "SETTLEMENT" "commerce.refund.settled" "SYSTEM_OF_RECORD" [jsonText "v1"]
    sampleEventHash

/-- The proof of the settled event, made in the name of the gateway. -/
def gatewayProof : Json :=
  .obj ((membersOf (some sampleProof)).map fun m ↦
    if m.1 = js "issuer_ref" then (m.1, jsonText "gw")
    else if m.1 = js "verification_method" then (m.1, jsonText "gw#k1") else m)

/-- The settled refund of the provider, signed by the gateway. -/
def gatewayBundle : Members :=
  [(js "payload", .obj ((membersOf (get (some settledBundle) (js "payload"))).map fun m ↦
      if m.1 = js "issuers" then (m.1, .arr [sampleIssuer, gatewayIssuer]) else m)),
    (js "proofs", .arr [gatewayProof])]

/-- The sample host on the payload of that bundle. -/
def gatewayRuntime : Runtime :=
  { sampleRuntime with
    sha256 := fun bytes ↦
      if bytes.length = 2202 then
        digestOf "d738622aa328e50e1138c32e806b350ee4b6a4a147e8dce0d5e02da2599a419c"
      else sampleRuntime.sha256 bytes }

private theorem gatewayFacts :
    (verifyBundle gatewayRuntime (.obj gatewayBundle)).toOption.map Verification.status =
      some .valid := by
  decide +kernel

/-- The packet calls the event signed that the verdict engine does not find covered. -/
theorem gatewayEvent_disagrees :
    ∃ verification, verifyBundle gatewayRuntime (.obj gatewayBundle) = .ok verification ∧
      verification.status ≠ .invalid ∧
      ∀ evaluation generatedAt, ∃ packet,
        buildOutcomePacket gatewayRuntime gatewayBundle verification evaluation generatedAt =
          .ok packet ∧
        ∃ event ∈ (sectionsOf gatewayBundle).events, ∃ entry ∈ packet.lifecycle,
          entry.eventId = eventIdOf event ∧ entry.signed = true ∧
            proofCoversEvent verification.validProofs event = false := by
  obtain ⟨verification, hverify, hstatus⟩ := exists_of_status gatewayFacts
  have hnot : verification.status ≠ .invalid := by
    rw [hstatus]
    decide
  obtain ⟨hproofs, haccepted⟩ := verification_accepted hverify hnot
  refine ⟨verification, hverify, hnot, fun evaluation generatedAt ↦ ?_⟩
  obtain ⟨packet, hpacket, hlifecycle⟩ :=
    buildOutcomePacket_accepted haccepted verification evaluation generatedAt
  have hevent : settledEvent ∈ (sectionsOf gatewayBundle).events := List.mem_singleton_self _
  have hproof : gatewayProof ∈ (sectionsOf gatewayBundle).proofs := List.mem_singleton_self _
  refine ⟨packet, hpacket, settledEvent, hevent, lifecycleEntry verification settledEvent, ?_, rfl,
    ?_, ?_⟩
  · rw [hlifecycle]
    apply List.mem_map_of_mem
    exact (List.perm_insertionSort _ _).mem_iff.mpr hevent
  · apply (signed_iff haccepted hevent hproofs).mpr
    exact ⟨gatewayProof, hproof, rfl, rfl⟩
  · rw [Bool.eq_false_iff, ne_eq, covers_iff haccepted hevent hproofs]
    rintro ⟨proof, hmem, -, hissuer⟩
    obtain rfl : proof = gatewayProof := List.mem_singleton.mp hmem
    have hgateway : get (some gatewayProof) (js "issuer_ref") = some (jsonText "gw") := rfl
    have hprovider : get (some settledEvent) (js "issuer_ref") = some (jsonText "psp") := rfl
    rw [hgateway, hprovider, Option.some_inj, jsonText, jsonText, Json.str.injEq] at hissuer
    exact absurd hissuer (by decide)

theorem lifecycle_agrees_iff_gateway :
    ∃ verification, verifyBundle gatewayRuntime (.obj gatewayBundle) = .ok verification ∧
      ∀ evaluation generatedAt, ∃ packet,
        buildOutcomePacket gatewayRuntime gatewayBundle verification evaluation generatedAt =
          .ok packet ∧
        ((∀ event ∈ (sectionsOf gatewayBundle).events, ∀ entry ∈ packet.lifecycle,
            entry.eventId = eventIdOf event →
            (entry.signed = true ↔ proofCoversEvent verification.validProofs event = true)) ↔
          ∀ event ∈ (sectionsOf gatewayBundle).events, NamedByOwnIssuer gatewayBundle event) := by
  obtain ⟨verification, hverify, hstatus⟩ := exists_of_status gatewayFacts
  have hnot : verification.status ≠ .invalid := by
    rw [hstatus]
    decide
  refine ⟨verification, hverify, fun evaluation generatedAt ↦ ?_⟩
  obtain ⟨packet, hpacket, -, -, -, hagrees⟩ :=
    lifecycle_agrees_iff hverify hnot evaluation generatedAt
  exact ⟨packet, hpacket, hagrees⟩

end TimeProofs.Relay
