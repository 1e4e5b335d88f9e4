import TimeProofs.Relay.AtMostOnce
import TimeProofs.Relay.Sequential

/-!
# The outcome progression

The verdict that the relay stores for an action is a function of what its accepted webhooks say,
whatever their order: the events of each are signed by the relay and stay in every later
revision.
-/

namespace TimeProofs.Relay

open TimeProofs.Base TimeProofs.Json TimeProofs.Core TimeProofs.VerdictEngine
  TimeProofs.StripeConnector

/-- The event types that a webhook is normalized to. -/
def ReceivedWebhook.outcomes (r : ReceivedWebhook) : List JsString :=
  (eventDescriptors r.stripeEvent).map Descriptor.eventType

/-- The verdict after webhooks with the given event types. -/
def outcomeVerdict (accepted : List (List JsString)) : Verdict :=
  if ∃ outcomes ∈ accepted, js "commerce.refund.settlement_failed" ∈ outcomes ∨
      js "commerce.refund.cancelled" ∈ outcomes then .contradicted
  else if ∃ outcomes ∈ accepted, js "commerce.refund.settled" ∈ outcomes then .verified
  else if accepted = [] then .unprovable
  else .pending

/-- The verdict depends on which webhooks there are, and not on their order or number. -/
theorem outcomeVerdict_congr {accepted accepted' : List (List JsString)}
    (h : ∀ outcomes, outcomes ∈ accepted ↔ outcomes ∈ accepted') :
    outcomeVerdict accepted = outcomeVerdict accepted' := by
  have hempty : accepted = [] ↔ accepted' = [] := by
    simp only [List.eq_nil_iff_forall_not_mem, h]
  simp only [outcomeVerdict, h, hempty]

/-- The event types of the descriptors with their statuses. -/
def descriptorKinds : List (JsString × JsString) :=
  [(js "commerce.refund.created", js "SUCCEEDED"),
    (js "commerce.refund.settlement_pending", js "PENDING"),
    (js "commerce.refund.settled", js "SUCCEEDED"),
    (js "commerce.refund.settlement_failed", js "FAILED"),
    (js "commerce.refund.cancelled", js "CANCELLED")]

theorem mem_descriptorKinds {stripeEvent : Json} {d : Descriptor}
    (h : d ∈ eventDescriptors stripeEvent) : (d.eventType, d.status) ∈ descriptorKinds := by
  unfold eventDescriptors at h
  dsimp only at h
  rcases List.mem_append.mp h with hcreated | hstatus
  · split at hcreated
    · obtain rfl := List.mem_singleton.mp hcreated
      simp [descriptorKinds]
    · cases hcreated
  · split_ifs at hstatus
    all_goals first
      | (obtain rfl := List.mem_singleton.mp hstatus
         simp [descriptorKinds])
      | cases hstatus

/-- An event says what a descriptor says: it comes from a strong source, and a proof of its issuer
names it. -/
structure Tells (proofs : List Json) (d : Descriptor) (event : Json) : Prop where
  eventType : get (some event) (js "event_type") = some (.str d.eventType)
  status : get (some event) (js "status") = some (.str d.status)
  source : get (some event) (js "source_class") = some (.str (js "SYSTEM_OF_RECORD"))
  covered : ∃ proof ∈ proofs,
    get (some proof) (js "issuer_ref") = get (some event) (js "issuer_ref") ∧
    get (get (some proof) (js "target")) (js "target_type") = some (.str (js "OUTCOME_EVENT")) ∧
    get (get (some proof) (js "target")) (js "target_id") = get (some event) (js "event_id")

theorem Tells.mono {proofs proofs' : List Json} {d : Descriptor} {event : Json}
    (h : Tells proofs d event) (hsubset : proofs ⊆ proofs') : Tells proofs' d event := by
  obtain ⟨proof, hproof, hcovers⟩ := h.covered
  exact ⟨h.eventType, h.status, h.source, proof, hsubset hproof, hcovers⟩

/-- The groups of the verdict that an event of a type of the descriptors is in. -/
structure Grouped (eventType : JsString) (event : Json) : Prop where
  refund : isRefundEvent event = true
  reversed : isReversed event = false
  cancelled : isCancelled event = decide (eventType = js "commerce.refund.cancelled")
  failed : isFailedSettlement event =
    decide (eventType = js "commerce.refund.settlement_failed")
  settled : isSettled event = decide (eventType = js "commerce.refund.settled")
  some_group : (isCancelled event || isFailedSettlement event || isSettled event ||
    (isPendingSettlement event || isCreated event)) = true

theorem Tells.grouped {proofs : List Json} {d : Descriptor} {event : Json}
    (h : Tells proofs d event) {stripeEvent : Json} (hd : d ∈ eventDescriptors stripeEvent) :
    Grouped d.eventType event := by
  have hkind := mem_descriptorKinds hd
  have htype := h.eventType
  have hstatus := h.status
  generalize d.eventType = eventType at hkind htype ⊢
  generalize d.status = status at hkind hstatus
  have hassertion (types statuses : List JsString) : isAssertion types statuses event =
      (isOneOf types (some (.str eventType)) && isOneOf statuses (some (.str status))) := by
    rw [isAssertion, htype, hstatus]
  have hrefund : isRefundEvent event = (js "commerce.refund.").isPrefixOf eventType := by
    rw [isRefundEvent, htype, stringOf]
  simp only [descriptorKinds, List.mem_cons, Prod.mk.injEq, List.not_mem_nil, or_false] at hkind
  constructor
  · rw [hrefund]
    rcases hkind with ⟨rfl, -⟩ | ⟨rfl, -⟩ | ⟨rfl, -⟩ | ⟨rfl, -⟩ | ⟨rfl, -⟩ <;> decide
  · rw [isReversed, hassertion]
    rcases hkind with ⟨rfl, rfl⟩ | ⟨rfl, rfl⟩ | ⟨rfl, rfl⟩ | ⟨rfl, rfl⟩ | ⟨rfl, rfl⟩ <;> decide
  · rw [isCancelled, hassertion]
    rcases hkind with ⟨rfl, rfl⟩ | ⟨rfl, rfl⟩ | ⟨rfl, rfl⟩ | ⟨rfl, rfl⟩ | ⟨rfl, rfl⟩ <;> decide
  · rw [isFailedSettlement, hassertion, hassertion]
    rcases hkind with ⟨rfl, rfl⟩ | ⟨rfl, rfl⟩ | ⟨rfl, rfl⟩ | ⟨rfl, rfl⟩ | ⟨rfl, rfl⟩ <;> decide
  · rw [isSettled, hassertion]
    rcases hkind with ⟨rfl, rfl⟩ | ⟨rfl, rfl⟩ | ⟨rfl, rfl⟩ | ⟨rfl, rfl⟩ | ⟨rfl, rfl⟩ <;> decide
  · rw [isCancelled, isFailedSettlement, isSettled, isPendingSettlement, isCreated]
    simp only [hassertion]
    rcases hkind with ⟨rfl, rfl⟩ | ⟨rfl, rfl⟩ | ⟨rfl, rfl⟩ | ⟨rfl, rfl⟩ | ⟨rfl, rfl⟩ <;> decide

/-- The claim of an agent is in no group. -/
theorem ungrouped {event : Json}
    (h : get (some event) (js "event_type") = some (.str (js "commerce.refund.requested")))
    (types statuses : List JsString) (hnot : js "commerce.refund.requested" ∉ types) :
    isAssertion types statuses event = false := by
  rw [← Bool.not_eq_true, isAssertion_iff, h]
  rintro ⟨htype, -⟩
  obtain ⟨eventType, hmem, heq⟩ := isOneOf_iff.mp htype
  exact hnot (Json.str.inj (Option.some.inj heq) ▸ hmem)

/-- The events of a bundle are the claim of the agent and what the accepted webhooks say. -/
structure Told (bundle : Members) (accepted : List ReceivedWebhook) : Prop where
  sound : ∀ event ∈ (sectionsOf bundle).events,
    get (some event) (js "event_type") = some (.str (js "commerce.refund.requested")) ∨
    ∃ r ∈ accepted, ∃ d ∈ eventDescriptors r.stripeEvent,
      Tells (sectionsOf bundle).proofs d event
  complete : ∀ r ∈ accepted, ∀ d ∈ eventDescriptors r.stripeEvent,
    ∃ event ∈ (sectionsOf bundle).events, Tells (sectionsOf bundle).proofs d event
  nonempty : ∀ r ∈ accepted, eventDescriptors r.stripeEvent ≠ []

section

variable {rt : Runtime} {bundle : Members} {accepted : List ReceivedWebhook}

/-- In an accepted bundle what a descriptor says qualifies. -/
theorem Tells.isQualifying (haccepted : Accepted rt bundle) {d : Descriptor} {event : Json}
    (hevent : event ∈ (sectionsOf bundle).events) (h : Tells (sectionsOf bundle).proofs d event) :
    isQualifying (validProofs rt bundle (sectionsOf bundle)) event = true := by
  obtain ⟨proof, hproof, hissuer, htype, hid⟩ := h.covered
  rw [VerdictEngine.isQualifying, Bool.and_eq_true, h.source]
  exact ⟨by decide, proofCoversEvent_of_mem haccepted hevent hproof hissuer htype hid⟩

/-- The events of a bundle in a group that the claim of the agent is not in. -/
theorem Told.exists_iff (h : Told bundle accepted) (haccepted : Accepted rt bundle)
    (group : Json → Prop) (named : JsString → Prop)
    (hclaim : ∀ event, get (some event) (js "event_type") =
      some (.str (js "commerce.refund.requested")) → ¬group event)
    (hgroup : ∀ eventType event, Grouped eventType event → (group event ↔ named eventType)) :
    (∃ event ∈ (chronological rt (sectionsOf bundle).events).filter isRefundEvent,
      VerdictEngine.isQualifying (validProofs rt bundle (sectionsOf bundle)) event = true ∧
        group event) ↔
    ∃ outcomes ∈ accepted.map ReceivedWebhook.outcomes, ∃ eventType ∈ outcomes,
      named eventType := by
  constructor
  · rintro ⟨event, hmem, -, hin⟩
    rw [List.mem_filter, mem_chronological] at hmem
    rcases h.sound event hmem.1 with hrequested | ⟨r, hr, d, hd, htells⟩
    · exact absurd hin (hclaim event hrequested)
    · exact ⟨r.outcomes, List.mem_map_of_mem hr, d.eventType, List.mem_map_of_mem hd,
        (hgroup _ _ (htells.grouped hd)).mp hin⟩
  · rintro ⟨outcomes, houtcomes, eventType, heventType, hnamed⟩
    obtain ⟨r, hr, rfl⟩ := List.mem_map.mp houtcomes
    obtain ⟨d, hd, rfl⟩ := List.mem_map.mp heventType
    obtain ⟨event, hevent, htells⟩ := h.complete r hr d hd
    have hgrouped := htells.grouped hd
    refine ⟨event, ?_, htells.isQualifying haccepted hevent, (hgroup _ _ hgrouped).mpr hnamed⟩
    exact List.mem_filter.mpr ⟨mem_chronological.mpr hevent, hgrouped.refund⟩

/-- The verdict on an accepted bundle is that of the webhooks that it tells of. -/
theorem Told.verdict (h : Told bundle accepted) (haccepted : Accepted rt bundle) :
    (verdictOn refundRuleset (conclude rt bundle [])
      ((chronological rt (sectionsOf bundle).events).filter isRefundEvent)).verdict =
        outcomeVerdict (accepted.map ReceivedWebhook.outcomes) := by
  have hcontradicted := h.exists_iff haccepted
    (fun event ↦ isReversed event = true ∨ isCancelled event = true ∨
      isFailedSettlement event = true)
    (fun eventType ↦ eventType = js "commerce.refund.settlement_failed" ∨
      eventType = js "commerce.refund.cancelled")
    (fun event hclaim ↦ by
      rw [isReversed, isCancelled, isFailedSettlement, ungrouped hclaim _ _ (by decide),
        ungrouped hclaim _ _ (by decide), ungrouped hclaim _ _ (by decide),
        ungrouped hclaim _ _ (by decide)]
      decide)
    (fun eventType event hgrouped ↦ by
      rw [hgrouped.reversed, hgrouped.cancelled, hgrouped.failed, decide_eq_true_eq,
        decide_eq_true_eq, or_comm (a := eventType = js "commerce.refund.cancelled")]
      simp)
  have hsettled := h.exists_iff haccepted (fun event ↦ isSettled event = true)
    (fun eventType ↦ eventType = js "commerce.refund.settled")
    (fun event hclaim ↦ by
      rw [isSettled, ungrouped hclaim _ _ (by decide)]
      decide)
    (fun eventType event hgrouped ↦ by rw [hgrouped.settled, decide_eq_true_eq])
  have hpending : (∃ event ∈ (chronological rt (sectionsOf bundle).events).filter isRefundEvent,
      (VerdictEngine.isQualifying (validProofs rt bundle (sectionsOf bundle)) event = true ∧
        (isPendingSettlement event = true ∨ isCreated event = true)) ∨
          isAccepted event = true) → accepted ≠ [] := by
    rintro ⟨event, hmem, hin⟩ rfl
    rw [List.mem_filter, mem_chronological] at hmem
    rcases h.sound event hmem.1 with hclaim | ⟨r, hr, -⟩
    · rw [isPendingSettlement, isCreated, isAccepted, ungrouped hclaim _ _ (by decide),
        ungrouped hclaim _ _ (by decide), ungrouped hclaim _ _ (by decide)] at hin
      simp at hin
    · cases hr
  have hcontradicts : (∃ outcomes ∈ accepted.map ReceivedWebhook.outcomes,
      ∃ eventType ∈ outcomes, eventType = js "commerce.refund.settlement_failed" ∨
        eventType = js "commerce.refund.cancelled") ↔
      ∃ outcomes ∈ accepted.map ReceivedWebhook.outcomes,
        js "commerce.refund.settlement_failed" ∈ outcomes ∨
          js "commerce.refund.cancelled" ∈ outcomes := by
    simp only [and_or_left, exists_or, exists_eq_right]
  have hsettles : (∃ outcomes ∈ accepted.map ReceivedWebhook.outcomes,
      ∃ eventType ∈ outcomes, eventType = js "commerce.refund.settled") ↔
      ∃ outcomes ∈ accepted.map ReceivedWebhook.outcomes,
        js "commerce.refund.settled" ∈ outcomes := by
    simp only [exists_eq_right]
  rw [hcontradicts] at hcontradicted
  rw [hsettles] at hsettled
  have hmap : accepted.map ReceivedWebhook.outcomes = [] ↔ accepted = [] := List.map_eq_nil_iff
  have hvalid : (conclude rt bundle []).validProofs = validProofs rt bundle (sectionsOf bundle) :=
    rfl
  rw [verdictOn_verdict, outcomeVerdict, hvalid]
  by_cases hcontra : ∃ outcomes ∈ accepted.map ReceivedWebhook.outcomes,
      js "commerce.refund.settlement_failed" ∈ outcomes ∨
        js "commerce.refund.cancelled" ∈ outcomes
  · rw [if_pos (hcontradicted.mpr hcontra), if_pos hcontra]
  · have hnone := mt hcontradicted.mp hcontra
    rw [if_neg hnone, if_neg hcontra]
    by_cases hsettle : ∃ outcomes ∈ accepted.map ReceivedWebhook.outcomes,
        js "commerce.refund.settled" ∈ outcomes
    · rw [if_pos (hsettled.mpr hsettle), if_pos hsettle]
    · have hunsettled := mt hsettled.mp hsettle
      rw [if_neg hunsettled, if_neg hsettle]
      by_cases hempty : accepted = []
      · rw [if_neg (fun hin ↦ hpending hin hempty), if_pos (hmap.mpr hempty)]
      · rw [if_neg (fun heq ↦ hempty (hmap.mp heq)), if_pos]
        -- any accepted webhook says something, which is not a contradiction or a settlement here
        obtain ⟨r, hr⟩ := List.exists_mem_of_ne_nil accepted hempty
        obtain ⟨d, hd⟩ := List.exists_mem_of_ne_nil _ (h.nonempty r hr)
        obtain ⟨event, hevent, htells⟩ := h.complete r hr d hd
        have hgrouped := htells.grouped hd
        have hqualifies := htells.isQualifying haccepted hevent
        have hmem : event ∈ (chronological rt (sectionsOf bundle).events).filter isRefundEvent :=
          List.mem_filter.mpr ⟨mem_chronological.mpr hevent, hgrouped.refund⟩
        refine ⟨event, hmem, .inl ⟨hqualifies, ?_⟩⟩
        have hsome := hgrouped.some_group
        simp only [Bool.or_eq_true] at hsome
        rcases hsome with ((hcancelled | hfailed) | hsettled) | hrest
        · exact absurd ⟨event, hmem, hqualifies, .inr (.inl hcancelled)⟩ hnone
        · exact absurd ⟨event, hmem, hqualifies, .inr (.inr hfailed)⟩ hnone
        · exact absurd ⟨event, hmem, hqualifies, hsettled⟩ hunsettled
        · exact hrest

end

/-- A linked event keeps what its webhook says. -/
def Relinked (event linked : Members) : Prop :=
  ∀ key, key ≠ js "object_digest" → key ≠ js "parent_event_digests" →
    member linked key = (member event key).map clone

section

variable {host : Host} {relay : RelayService} {w : WebhookRequest} {r : ReceivedWebhook}

theorem relinked_linkEvents {parent : Option Json} {events linked : List Members}
    (h : linkEvents host parent events = .ok linked) :
    (∀ event ∈ events, ∃ new ∈ linked, Relinked event new) ∧
      ∀ new ∈ linked, ∃ event ∈ events, Relinked event new := by
  induction events generalizing parent linked with
  | nil =>
    cases h
    exact ⟨fun event hevent ↦ (List.not_mem_nil hevent).elim,
      fun new hnew ↦ (List.not_mem_nil hnew).elim⟩
  | cons event rest ih =>
    unfold linkEvents at h
    obtain ⟨first, hfirst, h⟩ := bind_eq_ok_iff.mp h
    obtain ⟨more, hmore, h⟩ := bind_eq_ok_iff.mp h
    obtain rfl := Except.ok.inj h
    obtain ⟨hforth, hback⟩ := ih hmore
    have hrelinked : Relinked event first := by
      intro key hdigest hparents
      rw [member_withObjectDigest hfirst hdigest, member_setMember, if_neg (Ne.symm hparents)]
    constructor
    · intro old hold
      rcases List.mem_cons.mp hold with rfl | hrest
      · exact ⟨first, List.mem_cons_self, hrelinked⟩
      · obtain ⟨new, hnew, hsame⟩ := hforth old hrest
        exact ⟨new, List.mem_cons_of_mem first hnew, hsame⟩
    · intro new hnew
      rcases List.mem_cons.mp hnew with rfl | hrest
      · exact ⟨event, List.mem_cons_self, hrelinked⟩
      · obtain ⟨old, hold, hsame⟩ := hback new hrest
        exact ⟨old, List.mem_cons_of_mem event hold, hsame⟩

/-- The events of a webhook are those of its descriptors. -/
theorem Received.mem_events {parts : WebhookParts} (h : Received host relay w r parts)
    {event : Members} : event ∈ r.observation.events ↔
      ∃ d ∈ eventDescriptors r.stripeEvent, stripeOutcomeEvent host r.stripeEvent
        (parts.options relay) r.refundId parts.id parts.evidenceId parts.occurredAt d =
          .ok event := by
  have hevents := collect_eq_ok.mp h.events
  have hok : event ∈ r.observation.events ↔
      (.ok event : Except JsString Members) ∈ r.observation.events.map Except.ok := by
    rw [List.mem_map_of_injective fun _ _ ↦ Except.ok.inj]
  rw [hok, ← hevents, List.mem_map]

/-- Every descriptor of a webhook has an event. -/
theorem Received.exists_event {parts : WebhookParts} (h : Received host relay w r parts)
    {d : Descriptor} (hd : d ∈ eventDescriptors r.stripeEvent) :
    ∃ event, stripeOutcomeEvent host r.stripeEvent (parts.options relay) r.refundId parts.id
      parts.evidenceId parts.occurredAt d = .ok event := by
  have hmem := List.mem_map_of_mem (f := stripeOutcomeEvent host r.stripeEvent
    (parts.options relay) r.refundId parts.id parts.evidenceId parts.occurredAt) hd
  rw [collect_eq_ok.mp h.events] at hmem
  obtain ⟨event, -, hevent⟩ := List.mem_map.mp hmem
  exact ⟨event, hevent.symm⟩

/-- The members of a stored event that the verdict reads. -/
structure Stored (relay : RelayService) (d : Descriptor) (event : Members) : Prop where
  eventType : member event (js "event_type") = some (.str d.eventType)
  status : member event (js "status") = some (.str d.status)
  source : member event (js "source_class") = some (.str (js "SYSTEM_OF_RECORD"))
  issuer : member event (js "issuer_ref") = some (.str relay.issuerId)
  id : ∃ id, member event (js "event_id") = some (.str id)

/-- A text of an event. -/
theorem member_createOutcomeEvent {o : EventOptions} {event : Members}
    (h : createOutcomeEvent host.toRuntime o = .ok event) {key text : JsString}
    (hdigest : key ≠ js "object_digest")
    (hkey : member (eventMembers o) key = some (.str text)) :
    member event key = some (.str text) := by
  rw [member_withObjectDigest h hdigest, hkey, Option.map_some, clone_str]

/-- A text of an event stays when the event is linked. -/
theorem member_relinked {o : EventOptions} {event linked : Members}
    (h : createOutcomeEvent host.toRuntime o = .ok event) (hlinked : Relinked event linked)
    {key text : JsString} (hdigest : key ≠ js "object_digest")
    (hparents : key ≠ js "parent_event_digests")
    (hkey : member (eventMembers o) key = some (.str text)) :
    member linked key = some (.str text) := by
  rw [hlinked key hdigest hparents, member_createOutcomeEvent h hdigest hkey, Option.map_some,
    clone_str]

theorem stored_of_relinked {stripeEvent : Json} {parts : WebhookParts}
    {refundId stripeEventId evidenceId occurredAt : JsString} {d : Descriptor}
    {event linked : Members}
    (h : stripeOutcomeEvent host stripeEvent (parts.options relay) refundId stripeEventId
      evidenceId occurredAt d = .ok event) (hlinked : Relinked event linked) :
    Stored relay d linked where
  eventType := member_relinked h hlinked (by decide) (by decide) rfl
  status := member_relinked h hlinked (by decide) (by decide) rfl
  source := member_relinked h hlinked (by decide) (by decide) rfl
  issuer := member_relinked h hlinked (by decide) (by decide) rfl
  id := ⟨_, member_relinked h hlinked (by decide) (by decide) rfl⟩

/-- A proof that the relay makes names its issuer and its target. -/
theorem createSignatureProof_names {request : ProofRequest} {proof : Json}
    {targetType targetId : JsString} (htarget : request.target = targetOf targetType targetId)
    (h : createSignatureProof host.toRuntime request = .ok proof) :
    get (some proof) (js "issuer_ref") = some (.str request.issuerRef) ∧
      get (get (some proof) (js "target")) (js "target_type") = some (.str targetType) ∧
      get (get (some proof) (js "target")) (js "target_id") = some (.str targetId) := by
  obtain ⟨digest, signature, rfl, -⟩ := createSignatureProof_shape h
  refine ⟨rfl, ?_, ?_⟩
  · show member (signedTarget request.target digest) (js "target_type") = _
    rw [htarget]
    rfl
  · show member (signedTarget request.target digest) (js "target_id") = _
    rw [htarget]
    rfl

/-- The bundle of a new action tells of no webhook. -/
theorem PreparedAction.told {request : ActionRequest} {a : NewAction} {parts : ActionParts}
    (h : PreparedAction host relay request a parts) : Told a.bundle [] where
  sound := by
    intro event hevent
    rw [h.sections] at hevent
    obtain rfl := List.mem_singleton.mp hevent
    have hclaim := h.event
    rw [claimEvent] at hclaim
    exact .inl (member_createOutcomeEvent hclaim (by decide) rfl)
  complete := fun r hr ↦ (List.not_mem_nil hr).elim
  nonempty := fun r hr ↦ (List.not_mem_nil hr).elim

/-- A revision tells of its webhook and of those before it. -/
theorem PreparedRevision.told {previous : Snapshot} {revision : NewRevision}
    {parts : RevisionParts} {accepted : List ReceivedWebhook}
    (h : PreparedRevision host relay w r previous revision parts) {webhook : WebhookParts}
    (hreceived : Received host relay w r webhook) (hprevious : Plain previous.bundle)
    (htold : Told previous.members accepted) : Told revision.bundle (accepted ++ [r]) := by
  have hsections := h.sections hreceived hprevious
  obtain ⟨hforth, hback⟩ := relinked_linkEvents h.newEvents
  -- what a new event says is signed by one of the new proofs
  have htells {d : Descriptor} {event new : Members} (hnew : new ∈ parts.newEvents)
      (hd : stripeOutcomeEvent host r.stripeEvent (webhook.options relay) r.refundId webhook.id
        webhook.evidenceId webhook.occurredAt d = .ok event) (hsame : Relinked event new) :
      Tells (sectionsOf revision.bundle).proofs d (.obj new) := by
    have hstored := stored_of_relinked hd hsame
    obtain ⟨id, hid⟩ := hstored.id
    obtain ⟨i, proof, hproof, hcreated⟩ := h.signs.exists_proof
      (List.mem_cons_of_mem _ (List.mem_map_of_mem hnew))
    obtain ⟨hissuer, htype, htarget⟩ := createSignatureProof_names rfl hcreated
    refine ⟨hstored.eventType, hstored.status, hstored.source, proof, ?_, ?_, htype, ?_⟩
    · rw [hsections]
      exact List.mem_append_right _ hproof
    · exact hissuer.trans hstored.issuer.symm
    · rw [htarget, idText, hid]
      exact hid.symm
  have hproofs : (sectionsOf previous.members).proofs ⊆ (sectionsOf revision.bundle).proofs := by
    rw [hsections]
    exact List.subset_append_left _ _
  constructor
  · intro event hevent
    rw [hsections] at hevent
    rcases List.mem_append.mp hevent with hold | hnew
    · rcases htold.sound event hold with hclaim | ⟨old, hr, d, hd, hsays⟩
      · exact .inl hclaim
      · exact .inr ⟨old, List.mem_append_left _ hr, d, hd, hsays.mono hproofs⟩
    · obtain ⟨new, hmem, rfl⟩ := List.mem_map.mp hnew
      obtain ⟨event, hevent, hsame⟩ := hback new hmem
      obtain ⟨d, hd, hcreated⟩ := hreceived.mem_events.mp hevent
      exact .inr ⟨r, List.mem_append_right _ (List.mem_singleton_self r), d, hd,
        htells hmem hcreated hsame⟩
  · intro old hr d hd
    rw [hsections]
    rcases List.mem_append.mp hr with hold | hnew
    · obtain ⟨event, hevent, hsays⟩ := htold.complete old hold d hd
      exact ⟨event, List.mem_append_left _ hevent, hsections ▸ hsays.mono hproofs⟩
    · obtain rfl := List.mem_singleton.mp hnew
      obtain ⟨event, hcreated⟩ := hreceived.exists_event hd
      obtain ⟨new, hmem, hsame⟩ := hforth event (hreceived.mem_events.mpr ⟨d, hd, hcreated⟩)
      exact ⟨.obj new, List.mem_append_right _ (List.mem_map_of_mem hmem),
        hsections ▸ htells hmem hcreated hsame⟩
  · intro old hr
    rcases List.mem_append.mp hr with hold | hnew
    · exact htold.nonempty old hold
    · obtain rfl := List.mem_singleton.mp hnew
      exact hreceived.descriptors

end

/-! ### Sequences of webhooks -/

/-- The stores that an action runs through when one webhook follows another, with the webhooks
that were accepted for it so far. -/
inductive Progresses (host : Host) (relay : RelayService) (actionId : JsString) :
    Store → List ReceivedWebhook → Prop where
  | recorded {request : ActionRequest} {s t : Store} {response : Response}
      (hrun : recordAction host relay request s = (.resolved response, t))
      (hid : response.stored.metadata.actionId = actionId) : Progresses host relay actionId t []
  | accepted {s t : Store} {accepted : List ReceivedWebhook} {w : WebhookRequest}
      {r : ReceivedWebhook} {stored : StoredRevision} {packet : OutcomePacket}
      (h : Progresses host relay actionId s accepted)
      (hrun : ingestStripeWebhook host relay w s =
        (.resolved (.appended (.revision stored) packet), t))
      (hreceived : receiveWebhook host relay w = .ok r)
      (hlinked : linkedAction r.refundId (indexValue s.stripeIndex r.refundId) =
        .ok (.actionId actionId)) : Progresses host relay actionId t (accepted ++ [r])
  | ignored {s t : Store} {accepted : List ReceivedWebhook} {w : WebhookRequest}
      {outcome : Outcome Rejection WebhookResponse}
      (h : Progresses host relay actionId s accepted)
      (hrun : ingestStripeWebhook host relay w s = (outcome, t))
      (hnot : ∀ stored packet, outcome ≠ .resolved (.appended (.revision stored) packet)) :
      Progresses host relay actionId t accepted
  | elsewhere {s t : Store} {accepted : List ReceivedWebhook} {w : WebhookRequest}
      {r : ReceivedWebhook} {other : JsString} {outcome : Outcome Rejection WebhookResponse}
      (h : Progresses host relay actionId s accepted)
      (hrun : ingestStripeWebhook host relay w s = (outcome, t))
      (hreceived : receiveWebhook host relay w = .ok r)
      (hlinked : linkedAction r.refundId (indexValue s.stripeIndex r.refundId) =
        .ok (.actionId other)) (hne : actionKey host actionId ≠ actionKey host other) :
      Progresses host relay actionId t accepted

/-- The latest revision of an action tells of the accepted webhooks, and its summary is that of
its bundle. -/
structure ToldOk (host : Host) (files : ActionFiles) (accepted : List ReceivedWebhook)
    (latest : Snapshot) : Prop where
  holds : files.Holds latest
  bundle : latest.bundle = .obj latest.members
  plain : Plain latest.bundle
  ruleset : latest.metadata.ruleset = refundRuleset
  summary : ∃ generatedAt, currentSummary host latest.members refundRuleset generatedAt =
    .ok latest.current
  told : Told latest.members accepted

section

variable {host : Host} {relay : RelayService} {s t : Store} {accepted : List ReceivedWebhook}

theorem toldOk_recordAction {request : ActionRequest} {response : Response}
    (h : recordAction host relay request s = (.resolved response, t)) :
    ∃ latest, ToldOk host (t.actions (actionKey host response.stored.metadata.actionId)) []
      latest := by
  obtain ⟨a, hprepared, hmetadata, hholds⟩ := recordAction_resolved h
  obtain ⟨parts, hprepared⟩ := prepareAction_prepared hprepared
  rw [hmetadata]
  rw [hprepared.plain.clone_eq] at hholds
  exact ⟨_, hholds, rfl, hprepared.plain, hprepared.ruleset, ⟨_, hprepared.current⟩,
    hprepared.told⟩

theorem ToldOk.ingests {latest : Snapshot} {w : WebhookRequest}
    {actionId : JsString} {r : ReceivedWebhook} {previous : Snapshot} {revision : NewRevision}
    (h : ToldOk host (s.actions (actionKey host actionId)) accepted latest)
    (hingests : Ingests host relay w s t actionId r previous revision) :
    ∃ next, ToldOk host (t.actions (actionKey host actionId)) (accepted ++ [r]) next := by
  obtain rfl := h.holds.eq hingests.holds
  obtain ⟨-, parts, hprepared⟩ := prepareRevision_prepared hingests.prepared
  obtain ⟨webhook, hreceived⟩ := receiveWebhook_received hingests.received
  have hholds := holds_writeFiles s (actionKey host actionId) (revision.metadata latest.metadata)
    revision.bundle revision.current
  rw [hprepared.plain.clone_eq, ← hingests.store] at hholds
  exact ⟨_, hholds, rfl, hprepared.plain, h.ruleset, ⟨_, h.ruleset ▸ hprepared.current⟩,
    hprepared.told hreceived h.plain h.told⟩

/-- Every sequence of webhooks leaves a revision that tells of the accepted ones. -/
theorem Progresses.told {actionId : JsString} (h : Progresses host relay actionId s accepted) :
    ∃ latest, ToldOk host (s.actions (actionKey host actionId)) accepted latest := by
  induction h with
  | recorded hrun hid => exact hid ▸ toldOk_recordAction hrun
  | @accepted s t accepted w r stored packet _ hrun hreceived hlinked ih =>
    obtain ⟨latest, hlatest⟩ := ih
    rcases ingestStripeWebhook_cases hrun with
      ⟨-, hnot⟩ | ⟨actionId', r', previous, revision, packet', hingests, -⟩
    · exact absurd rfl (hnot stored packet)
    · obtain rfl : r = r' := Except.ok.inj (hreceived.symm.trans hingests.received)
      have hsame := hlinked.symm.trans hingests.linked
      cases hsame
      exact hlatest.ingests hingests
  | @ignored s t accepted w outcome _ hrun hnot ih =>
    rcases ingestStripeWebhook_cases hrun with
      ⟨rfl, -⟩ | ⟨actionId', r', previous, revision, packet', -, rfl⟩
    · exact ih
    · exact absurd rfl (hnot _ packet')
  | @elsewhere s t accepted w r other outcome _ hrun hreceived hlinked hne ih =>
    rcases ingestStripeWebhook_cases hrun with
      ⟨rfl, -⟩ | ⟨actionId', r', previous, revision, packet', hingests, -⟩
    · exact ih
    · obtain rfl : r = r' := Except.ok.inj (hreceived.symm.trans hingests.received)
      have hsame := hlinked.symm.trans hingests.linked
      cases hsame
      rw [hingests.store, actions_writeFiles hne]
      exact ih

/-- The verdict that the relay stores for an action is that of the set of its accepted webhooks,
unless its latest bundle is INVALID. -/
theorem stored_verdict_is_outcome (host : Host) (relay : RelayService) (actionId : JsString)
    (s : Store) (accepted : List ReceivedWebhook)
    (h : Progresses host relay actionId s accepted) :
    ∃ latest verification, (s.actions (actionKey host actionId)).Holds latest ∧
      verifyBundle host.toRuntime latest.bundle = .ok verification ∧
      (verification.status ≠ .invalid →
        latest.current.verdict = outcomeVerdict (accepted.map ReceivedWebhook.outcomes)) ∧
      ∀ accepted' : List ReceivedWebhook, (∀ r, r ∈ accepted' ↔ r ∈ accepted) →
        outcomeVerdict (accepted'.map ReceivedWebhook.outcomes) =
          outcomeVerdict (accepted.map ReceivedWebhook.outcomes) := by
  obtain ⟨latest, hlatest⟩ := h.told
  obtain ⟨generatedAt, hsummary⟩ := hlatest.summary
  obtain ⟨verification, evaluation, hverify, hevaluate, -, -, -, hverdict⟩ :=
    currentSummary_eq_ok hsummary
  refine ⟨latest, verification, hlatest.holds, hlatest.bundle ▸ hverify, ?_, ?_⟩
  · intro hstatus
    obtain ⟨rt, members, hread, hok, -⟩ := verifyBundle_accepts.mp ⟨hverify, hstatus⟩
    cases hread
    rw [evaluateBundle, if_pos rfl, evaluateRefund_accepted hok] at hevaluate
    obtain rfl := Except.ok.inj hevaluate
    rw [hverdict]
    exact hlatest.told.verdict hok
  · intro accepted' hsame
    apply outcomeVerdict_congr
    intro outcomes
    simp only [List.mem_map, hsame]

end

/-- The revision that a webhook is accepted as. -/
def WebhookResponse.revision : WebhookResponse → Option StoredRevision
  | .appended (.revision stored) _ => some stored
  | _ => none

private theorem toOption_eq_some {ε α : Type} {result : Except ε α} {a : α} :
    result.toOption = some a ↔ result = .ok a := by
  cases result <;> simp [Except.toOption]

private theorem settledFacts :
    ((recordAction sampleHost sampleRelay (sampleAction (jsonText "re_1"))).result .empty).any
      (fun recorded ↦ (recorded.1.stored.metadata.actionId = js "a1" &&
          recorded.2.stripeIndex = [(js "re_1", js "a1")]) &&
        ((ingestStripeWebhook sampleHost sampleRelay settledWebhook).result recorded.2).any
          fun ingested ↦ ingested.1.revision.any (·.current.structuralStatus = .valid)) = true ∧
    (receiveWebhook sampleHost sampleRelay settledWebhook).toOption.any (fun r ↦
      r.refundId = js "re_1" && r.outcomes = [js "commerce.refund.settled"]) = true := by
  decide +kernel

/-- After the settled webhook the stored verdict is VERIFIED. -/
theorem stored_verdict_is_outcome_settled :
    ∃ (s : Store) (r : ReceivedWebhook) (latest : Snapshot) (verification : Verification),
      Progresses sampleHost sampleRelay (js "a1") s [r] ∧
      r.outcomes = [js "commerce.refund.settled"] ∧
      (s.actions (actionKey sampleHost (js "a1"))).Holds latest ∧
      verifyBundle sampleHost.toRuntime latest.bundle = .ok verification ∧
      verification.status = .valid ∧
      latest.current.verdict = outcomeVerdict ([r].map ReceivedWebhook.outcomes) ∧
      latest.current.verdict = .verified := by
  obtain ⟨haccepted, hreceived⟩ := settledFacts
  obtain ⟨r, hr, hreceived⟩ := (Option.any_eq_true _ _).mp hreceived
  rw [Bool.and_eq_true, decide_eq_true_eq, decide_eq_true_eq] at hreceived
  obtain ⟨⟨response, s⟩, hrecorded, hfacts⟩ := (Option.any_eq_true _ _).mp haccepted
  rw [Bool.and_eq_true, Bool.and_eq_true, decide_eq_true_eq, decide_eq_true_eq,
    Option.any_eq_true] at hfacts
  obtain ⟨⟨hid, hindex⟩, ⟨answer, t⟩, hingested, hstored⟩ := hfacts
  obtain ⟨stored, hrevision, hstatus⟩ := (Option.any_eq_true _ _).mp hstored
  rw [Call.result_eq_some] at hrecorded hingested
  rw [toOption_eq_some] at hr
  have hlinked : linkedAction r.refundId (indexValue s.stripeIndex r.refundId) =
      .ok (.actionId (js "a1")) := by
    rw [hreceived.1, hindex]
    rfl
  cases answer with
  | duplicate existing => cases hrevision
  | appended appended packet =>
    cases appended with
    | duplicate existing => cases hrevision
    | revision stored' =>
      have hprogress : Progresses sampleHost sampleRelay (js "a1") t [r] :=
        .accepted (.recorded hrecorded hid) hingested hr hlinked
      obtain ⟨latest, verification, hholds, hverify, hverdict, -⟩ :=
        stored_verdict_is_outcome sampleHost sampleRelay (js "a1") t [r] hprogress
      have hvalid : verification.status = .valid := by
        rcases ingestStripeWebhook_cases hingested with
          ⟨-, hnot⟩ | ⟨actionId, r', previous, revision, packet', hingests, heq⟩
        · exact absurd rfl (hnot stored' packet)
        · cases heq
          cases hrevision
          obtain rfl : r = r' := Except.ok.inj (hr.symm.trans hingests.received)
          cases hlinked.symm.trans hingests.linked
          obtain ⟨-, parts, hprepared⟩ := prepareRevision_prepared hingests.prepared
          obtain ⟨verification', -, hverify', -, -, -, hsummary, -⟩ :=
            currentSummary_eq_ok hprepared.current
          have hwritten := holds_writeFiles s (actionKey sampleHost (js "a1"))
            (revision.metadata previous.metadata) revision.bundle revision.current
          rw [← hingests.store, hprepared.plain.clone_eq] at hwritten
          obtain rfl := hholds.eq hwritten
          obtain rfl : verification = verification' := Except.ok.inj (hverify.symm.trans hverify')
          rw [← hsummary]
          exact of_decide_eq_true hstatus
      refine ⟨t, r, latest, verification, hprogress, hreceived.2, hholds, hverify, hvalid, ?_, ?_⟩
      · exact hverdict (by rw [hvalid]; decide)
      · rw [hverdict (by rw [hvalid]; decide), List.map_singleton, hreceived.2]
        decide

end TimeProofs.Relay
