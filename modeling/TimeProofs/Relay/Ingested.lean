import TimeProofs.Core.Extending
import TimeProofs.Relay.Outcomes
import TimeProofs.Relay.Recorded

/-!
# Ingested revisions

When the revision that a webhook appends is accepted. Its objects are made from the provider's
ids, statuses and time and from two readings of the relay clock; the verifier asks that the time
is not after the clock and that the ids are new.
-/

namespace TimeProofs.Relay

open TimeProofs.Base TimeProofs.Json TimeProofs.Core TimeProofs.VerdictEngine
  TimeProofs.StripeConnector

/-- The descriptors that webhooks have. -/
def refundDescriptors : List Descriptor :=
  [⟨js "created", js "EFFECT", js "commerce.refund.created", js "SUCCEEDED"⟩,
    ⟨js "pending", js "SETTLEMENT", js "commerce.refund.settlement_pending", js "PENDING"⟩,
    ⟨js "settled", js "SETTLEMENT", js "commerce.refund.settled", js "SUCCEEDED"⟩,
    ⟨js "failed", js "SETTLEMENT", js "commerce.refund.settlement_failed", js "FAILED"⟩,
    ⟨js "cancelled", js "TERMINATION", js "commerce.refund.cancelled", js "CANCELLED"⟩]

/-- A webhook has some of the descriptors, in their order. -/
theorem eventDescriptors_sublist (stripeEvent : Json) :
    (eventDescriptors stripeEvent).Sublist refundDescriptors := by
  unfold eventDescriptors refundDescriptors
  dsimp only
  split_ifs <;> simp [List.sublist_cons_iff]

theorem mem_refundDescriptors {stripeEvent : Json} {d : Descriptor}
    (h : d ∈ eventDescriptors stripeEvent) : d ∈ refundDescriptors :=
  (eventDescriptors_sublist stripeEvent).subset h

/-- What the verifier asks of the descriptors. -/
structure DescriptorOk (d : Descriptor) : Prop where
  phase : d.phase ∈ phases
  eventType : eventTypePattern.test d.eventType = true
  status : d.status ∈ statuses
  vocabulary : validateEventVocabulary (some (.str d.eventType)) d.eventType d.phase d.status
    (js "SYSTEM_OF_RECORD") = .ok []

theorem descriptor_ok {stripeEvent : Json} {d : Descriptor}
    (h : d ∈ eventDescriptors stripeEvent) : DescriptorOk d := by
  have hmem := mem_refundDescriptors h
  simp only [refundDescriptors, List.mem_cons, List.not_mem_nil, or_false] at hmem
  rcases hmem with rfl | rfl | rfl | rfl | rfl
  all_goals exact ⟨by decide, by decide, by decide, rfl⟩

theorem nodup_eventTypes (stripeEvent : Json) :
    ((eventDescriptors stripeEvent).map Descriptor.eventType).Nodup := by
  apply ((eventDescriptors_sublist stripeEvent).map Descriptor.eventType).nodup
  decide

theorem nodup_suffixes (stripeEvent : Json) :
    ((eventDescriptors stripeEvent).map Descriptor.suffix).Nodup := by
  apply ((eventDescriptors_sublist stripeEvent).map Descriptor.suffix).nodup
  decide

theorem isRefUnit_of_isIdUnit {c : CodeUnit} (h : isIdUnit c = true) : isRefUnit c = true := by
  have hne {d : CodeUnit} (hd : isIdUnit d = false) : c ≠ d := by
    rintro rfl
    rw [hd] at h
    cases h
  have hlist : c ∉ ([0x20, 0xA0, 0x1680, 0x2028, 0x2029, 0x202F, 0x205F, 0x3000, 0xFEFF] :
      List CodeUnit) := by
    simp only [List.mem_cons, List.not_mem_nil, or_false, not_or]
    exact ⟨hne (by decide), hne (by decide), hne (by decide), hne (by decide), hne (by decide),
      hne (by decide), hne (by decide), hne (by decide), hne (by decide)⟩
  have hcolon : c ≠ 0x3A := hne (by decide)
  have hunderscore : (0x5F : CodeUnit).toNat = 0x5F := rfl
  have hhyphen : (0x2D : CodeUnit).toNat = 0x2D := rfl
  have hbounds : 0x2D ≤ c.toNat ∧ c.toNat ≤ 0x7A := by
    simp only [isIdUnit, isLowerAlnum, isUpperAlnum, isDigit, Bool.or_eq_true, Bool.and_eq_true,
      decide_eq_true_eq] at h
    rcases h with (((h | h) | h | h) | rfl) | rfl <;> omega
  have hlow : ¬(0x09 ≤ c.toNat ∧ c.toNat ≤ 0x0D) := by omega
  have hhigh : ¬(0x2000 ≤ c.toNat ∧ c.toNat ≤ 0x200A) := by omega
  rw [isRefUnit, isSpace, Bool.and_eq_true, decide_eq_true_eq, Bool.not_eq_true',
    Bool.or_eq_false_iff, Bool.or_eq_false_iff, ← Bool.not_eq_true, ← Bool.not_eq_true]
  simp only [Bool.and_eq_true, decide_eq_true_eq, decide_eq_false_iff_not]
  exact ⟨hcolon, ⟨hlow, hhigh⟩, hlist⟩

/-- A normalized id can be referenced. -/
theorem isRefText_normalizedId (value : JsString) : isRefText (normalizedId value) = true := by
  rw [isRefText, List.all_eq_true]
  intro c hc
  obtain ⟨point, -, hpoint⟩ := List.mem_flatMap.mp hc
  split at hpoint
  · next hall =>
    exact isRefUnit_of_isIdUnit (List.all_eq_true.mp hall c hpoint)
  · obtain rfl := List.mem_singleton.mp hpoint
    decide

theorem isRefText_append {s t : JsString} (hs : isRefText s = true) (ht : isRefText t = true) :
    isRefText (s ++ t) = true := by
  rw [isRefText, List.all_append, Bool.and_eq_true]
  exact ⟨hs, ht⟩

/-- Two texts that are cut at the last occurrence of a unit. -/
theorem append_cons_inj {c : CodeUnit} {s t u v : JsString} (ht : c ∉ t) (hv : c ∉ v)
    (h : s ++ c :: t = u ++ c :: v) : s = u ∧ t = v := by
  rcases List.append_eq_append_iff.mp h with ⟨mid, rfl, heq⟩ | ⟨mid, rfl, heq⟩
  · cases mid with
    | nil => exact ⟨(List.append_nil s).symm, (List.cons.inj heq).2⟩
    | cons d rest =>
      obtain ⟨rfl, rfl⟩ := List.cons.inj heq
      exact absurd (List.mem_append_right rest List.mem_cons_self) ht
  · cases mid with
    | nil => exact ⟨List.append_nil u, (List.cons.inj heq).2.symm⟩
    | cons d rest =>
      obtain ⟨rfl, rfl⟩ := List.cons.inj heq
      exact absurd (List.mem_append_right rest List.mem_cons_self) hv

/-- The words that the ids of the relay start with: of events, evidence, relationships and
proofs. -/
def idWords : List JsString := [js "tpe_", js "tpev_", js "tpr_", js "tpp_"]

/-- What follows the key in the id of a webhook's object: nothing for evidence, and a text after
an underscore for the others. -/
def IsTail (word tail : JsString) : Prop :=
  if word = js "tpev_" then tail = [] else ∃ t, tail = 0x5F :: t ∧ 0x5F ∉ t

/-- The ids of the objects that the relay makes, those of webhooks under the given keys. -/
inductive RelayId (keys : List JsString) : JsString → Prop where
  | claim {word : JsString} (hword : word ∈ idWords) (rest : JsString) :
      RelayId keys (word ++ (js "claim_" ++ rest))
  | webhook {word key tail : JsString} (hword : word ∈ idWords) (hkey : key ∈ keys)
      (htail : IsTail word tail) : RelayId keys (word ++ (js "stripe_" ++ (key ++ tail)))

theorem RelayId.mono {keys keys' : List JsString} {id : JsString} (h : RelayId keys id)
    (hsubset : keys ⊆ keys') : RelayId keys' id := by
  cases h with
  | claim hword rest => exact .claim hword rest
  | webhook hword hkey htail => exact .webhook hword (hsubset hkey) htail

/-- The first four units of a word tell it from the others. -/
theorem idWords_inj {word word' s t : JsString} (hword : word ∈ idWords)
    (hword' : word' ∈ idWords) (h : word ++ s = word' ++ t) : word = word' := by
  have hlength : ∀ word ∈ idWords, 4 ≤ word.length := by decide
  have hinj : ∀ word ∈ idWords, ∀ word' ∈ idWords, word.take 4 = word'.take 4 → word = word' := by
    decide
  apply hinj word hword word' hword'
  have htake := congrArg (List.take 4) h
  rwa [List.take_append_of_le_length (hlength word hword),
    List.take_append_of_le_length (hlength word' hword')] at htake

/-- The tail of an id is read off its end. -/
theorem IsTail.inj {word key key' tail tail' : JsString} (h : IsTail word tail)
    (h' : IsTail word tail') (heq : key ++ tail = key' ++ tail') : key = key' ∧ tail = tail' := by
  unfold IsTail at h h'
  split at h
  · next hword =>
    rw [if_pos hword] at h'
    subst h h'
    rw [List.append_nil, List.append_nil] at heq
    exact ⟨heq, rfl⟩
  · next hword =>
    rw [if_neg hword] at h'
    obtain ⟨t, rfl, ht⟩ := h
    obtain ⟨t', rfl, ht'⟩ := h'
    obtain ⟨hkey, rfl⟩ := append_cons_inj ht ht' heq
    exact ⟨hkey, rfl⟩

/-- An id under a key is not one of the relay under other keys. -/
theorem RelayId.key_mem {keys : List JsString} {word key tail : JsString} (hword : word ∈ idWords)
    (htail : IsTail word tail)
    (h : RelayId keys (word ++ (js "stripe_" ++ (key ++ tail)))) : key ∈ keys := by
  generalize hid : word ++ (js "stripe_" ++ (key ++ tail)) = id at h
  cases h with
  | claim hclaim rest =>
    obtain rfl := idWords_inj hword hclaim hid
    have hrest := List.append_cancel_left hid
    exact absurd (List.cons.inj hrest).1 (by decide)
  | webhook hword' hkey htail' =>
    obtain rfl := idWords_inj hword hword' hid
    have hrest := List.append_cancel_left (List.append_cancel_left hid)
    obtain ⟨rfl, -⟩ := htail.inj htail' hrest
    exact hkey

/-! ### Received objects -/

/-- The word and the tail of each id of a webhook with the given descriptors. -/
def idParts (descriptors : List Descriptor) : List (JsString × JsString) :=
  descriptors.map (fun d ↦ (js "tpe_", 0x5F :: d.suffix)) ++ (js "tpev_", []) ::
    (List.range descriptors.length).map fun i ↦ (js "tpr_", 0x5F :: decimal (i + 1))

/-- The id under a key with the given word and tail. -/
def webhookId (key : JsString) (part : JsString × JsString) : JsString :=
  part.1 ++ (js "stripe_" ++ (key ++ part.2))

theorem underscore_not_mem_decimal (n : Nat) : (0x5F : CodeUnit) ∉ decimal n := by
  intro hmem
  exact absurd (isDigit_of_mem_decimal hmem) (by decide)

theorem idParts_ok {stripeEvent : Json} {part : JsString × JsString}
    (h : part ∈ idParts (eventDescriptors stripeEvent)) :
    part.1 ∈ idWords ∧ IsTail part.1 part.2 := by
  have hsuffix : ∀ d ∈ refundDescriptors, (0x5F : CodeUnit) ∉ d.suffix := by decide
  have hwords : js "tpe_" ≠ js "tpev_" ∧ js "tpr_" ≠ js "tpev_" := by decide
  have hmem : js "tpe_" ∈ idWords ∧ js "tpev_" ∈ idWords ∧ js "tpr_" ∈ idWords := by decide
  rw [idParts, List.mem_append, List.mem_cons] at h
  rcases h with hevent | rfl | hrelationship
  · obtain ⟨d, hd, rfl⟩ := List.mem_map.mp hevent
    refine ⟨hmem.1, ?_⟩
    rw [IsTail, if_neg hwords.1]
    exact ⟨_, rfl, hsuffix d (mem_refundDescriptors hd)⟩
  · refine ⟨hmem.2.1, ?_⟩
    rw [IsTail, if_pos rfl]
  · obtain ⟨i, -, rfl⟩ := List.mem_map.mp hrelationship
    refine ⟨hmem.2.2, ?_⟩
    rw [IsTail, if_neg hwords.2]
    exact ⟨_, rfl, underscore_not_mem_decimal _⟩

theorem nodup_idParts (stripeEvent : Json) : (idParts (eventDescriptors stripeEvent)).Nodup := by
  have hwords : js "tpe_" ≠ js "tpev_" ∧ js "tpe_" ≠ js "tpr_" ∧ js "tpev_" ≠ js "tpr_" := by
    decide
  have hevents : ((eventDescriptors stripeEvent).map
      fun d ↦ (js "tpe_", (0x5F : CodeUnit) :: d.suffix)).Nodup := by
    have hmap := (nodup_suffixes stripeEvent).map
      (f := fun suffix ↦ (js "tpe_", (0x5F : CodeUnit) :: suffix))
      (fun _ _ heq ↦ (List.cons.inj (Prod.mk.inj heq).2).2)
    rwa [List.map_map] at hmap
  have hrelationships : ((List.range (eventDescriptors stripeEvent).length).map
      fun i ↦ (js "tpr_", (0x5F : CodeUnit) :: decimal (i + 1))).Nodup := by
    apply List.nodup_range.map
    intro i j heq
    exact Nat.succ.inj (decimal_injective (List.cons.inj (Prod.mk.inj heq).2).2)
  rw [idParts, List.nodup_append, List.nodup_cons]
  refine ⟨hevents, ⟨?_, hrelationships⟩, ?_⟩
  · intro hmem
    obtain ⟨i, -, heq⟩ := List.mem_map.mp hmem
    exact hwords.2.2 (congrArg Prod.fst heq).symm
  · rintro part hpart part' hpart' rfl
    obtain ⟨d, -, rfl⟩ := List.mem_map.mp hpart
    rcases List.mem_cons.mp hpart' with heq | hmem
    · exact hwords.1 (congrArg Prod.fst heq)
    · obtain ⟨i, -, heq⟩ := List.mem_map.mp hmem
      exact hwords.2.1 (congrArg Prod.fst heq).symm

/-- The ids of a webhook's objects are distinct. -/
theorem nodup_webhookIds (stripeEvent : Json) (key : JsString) :
    ((idParts (eventDescriptors stripeEvent)).map (webhookId key)).Nodup := by
  apply (nodup_idParts stripeEvent).map_on
  intro part hpart part' hpart' heq
  have hword := idWords_inj (idParts_ok hpart).1 (idParts_ok hpart').1 heq
  obtain ⟨word, tail⟩ := part
  obtain ⟨word', tail'⟩ := part'
  obtain rfl : word = word' := hword
  have htail := List.append_cancel_left (List.append_cancel_left (List.append_cancel_left heq))
  exact Prod.ext rfl htail

/-- The ids of objects that were made one by one. -/
theorem idsOf_of_map {α ε : Type} {f : α → Except ε Members} {idField : JsString}
    {idOf : α → JsString}
    (hf : ∀ a object, f a = .ok object → get (some (.obj object)) idField = some (.str (idOf a)))
    {l : List α} {objects : List Members} (h : l.map f = objects.map .ok) :
    idsOf idField (objects.map .obj) = l.map idOf := by
  induction l generalizing objects with
  | nil =>
    obtain rfl := List.map_eq_nil_iff.mp h.symm
    rfl
  | cons a rest ih =>
    cases objects with
    | nil => cases h
    | cons object more =>
      obtain ⟨hfirst, hrest⟩ := List.cons.inj h
      have hid := hf a object hfirst
      rw [List.map_cons, List.map_cons, ← ih hrest]
      exact List.filterMap_cons_some (stringId_eq_some.mpr hid)

/-- The time of the provider, when a webhook has one. -/
def ReceivedWebhook.providerTime (r : ReceivedWebhook) : Option Int :=
  match get (some r.stripeEvent) (js "created") with
  | some (.num x) =>
    if x.isFinite then dateOfNumber (x * Float.ofModel (Float.Model.ofNat 1000)) else none
  | _ => none

theorem toIsoString_eq_ok {date : Option Int} {text : JsString}
    (h : toIsoString date = .ok text) : ∃ t, date = some t ∧ text = isoText t := by
  cases date with
  | none => cases h
  | some t => exact ⟨t, rfl, (Except.ok.inj h).symm⟩

section

variable {host : Host} {relay : RelayService} {w : WebhookRequest} {r : ReceivedWebhook}
  {parts : WebhookParts}

/-- A webhook occurred at the provider's time, or when it was recorded. -/
theorem Received.occurredAt_eq (h : Received host relay w r parts) :
    parts.occurredAt = parts.recordedAt ∨
      ∃ t, r.providerTime = some t ∧ parts.occurredAt = isoText t := by
  have hoccurred := h.occurredAt
  unfold isoFromUnix at hoccurred
  split at hoccurred
  · next x hx =>
    split at hoccurred
    · next hfinite =>
      obtain ⟨t, ht, htext⟩ := toIsoString_eq_ok hoccurred
      refine .inr ⟨t, ?_, htext⟩
      unfold ReceivedWebhook.providerTime
      rw [hx]
      exact (if_pos hfinite).trans ht
    · exact .inl (Except.ok.inj hoccurred).symm
  · exact .inl (Except.ok.inj hoccurred).symm

theorem Received.eventIds (h : Received host relay w r parts) :
    idsOf (js "event_id") (r.observation.events.map .obj) =
      (eventDescriptors r.stripeEvent).map fun d ↦
        webhookId parts.id (js "tpe_", 0x5F :: d.suffix) := by
  apply idsOf_of_map (fun d event hevent ↦ ?_) (collect_eq_ok.mp h.events)
  rw [stripeOutcomeEvent] at hevent
  rw [(createOutcomeEvent_built hevent).get_str (by decide) rfl]
  simp [webhookId, List.append_assoc]
  rfl

theorem Received.get_evidenceId (h : Received host relay w r parts) :
    get (some (.obj r.observation.evidence)) (js "evidence_id") =
      some (.str (webhookId parts.id (js "tpev_", []))) := by
  obtain ⟨eventIdText, hevidence⟩ := h.evidence
  unfold stripeEvidence at hevidence
  simp only [bind_eq_ok_iff, mapError_eq_ok] at hevidence
  obtain ⟨contentDigest, -, authentication, -, hitem⟩ := hevidence
  rw [(createEvidenceItem_built hitem).get_str (by decide) rfl]
  simp [webhookId, WebhookParts.evidenceId]
  rfl

theorem Received.relationshipIds (h : Received host relay w r parts) :
    idsOf (js "relationship_id") (r.observation.relationships.map .obj) =
      (List.range (eventDescriptors r.stripeEvent).length).map fun i ↦
        webhookId parts.id (js "tpr_", 0x5F :: decimal (i + 1)) := by
  have hall := collect_eq_ok.mp h.relationships
  rw [List.mapIdx_eq_zipIdx_map] at hall
  have hids : idsOf (js "relationship_id") (r.observation.relationships.map .obj) =
      (eventDescriptors r.stripeEvent).zipIdx.map fun p ↦
        webhookId parts.id (js "tpr_", 0x5F :: decimal (p.2 + 1)) := by
    apply idsOf_of_map _ hall
    intro p relationship hrelationship
    change stripeRelationship host parts.id parts.evidenceId p.2 p.1 = _ at hrelationship
    rw [stripeRelationship] at hrelationship
    rw [(createRelationship_built hrelationship).get_str (by decide) rfl]
    simp [webhookId, List.append_assoc]
    rfl
  rw [hids, List.range_eq_range', ← List.zipIdx_map_snd 0 (eventDescriptors r.stripeEvent),
    List.map_map]
  rfl

/-- The evidence of a webhook is of the profile. -/
theorem Received.evidenceOk (h : Received host relay w r parts) (hissuer : relay.issuerId ≠ []) :
    EvidenceOk host.toRuntime [relay.issuerId] (.obj r.observation.evidence) := by
  obtain ⟨eventIdText, hevidence⟩ := h.evidence
  unfold stripeEvidence at hevidence
  simp only [bind_eq_ok_iff, mapError_eq_ok] at hevidence
  obtain ⟨contentDigest, hdigest, authentication, -, hitem⟩ := hevidence
  apply (createEvidenceItem_ok_iff hitem).mpr
  have hcontent : validDigest (some (clone contentDigest)) = true := by
    rw [(plain_digestValue hdigest).clone_eq]
    obtain ⟨bytes, -, rfl⟩ := map_eq_ok_iff.mp hdigest
    exact validDigest_iff.mpr ⟨_, isDigest_digestObject _, sha256Pattern_sha256Hex _ bytes⟩
  have hlocator : LocatorOk host.toRuntime (some (clone (.obj
      [(js "scheme", .str (js "opaque")), (js "value", .str (js "stripe:event:" ++ eventIdText)),
        (js "retrieval_policy", .str (js "AUTHORIZED_ONLY"))]))) := by
    rw [clone]
    simp only [cloneMembers, clone_str]
    refine ⟨rfl, rfl, rfl, rfl, ?_, ?_⟩
    · intro hhttps
      cases hhttps
    · intro hembedded
      cases hembedded
  exact
    { evidenceId := List.append_ne_nil_of_left_ne_nil (by decide) _
      evidenceType := (by decide : evidenceTypePattern.test (js "STRIPE_WEBHOOK_EVENT") = true)
      mediaType := (by decide : mediaTypePattern.test (js "application/json") = true)
      sourceClass := (by decide : js "SYSTEM_OF_RECORD" ∈ sourceClasses)
      issuerRef := ⟨List.mem_singleton_self _, hissuer⟩
      contentDigest := hcontent
      locator := hlocator
      claimScope := by
        refine ⟨?_, nodup_eventTypes _, List.forall_mem_map.mpr fun d hd ↦ ?_⟩
        · exact mt List.map_eq_nil_iff.mp h.descriptors
        · exact (descriptor_ok hd).eventType
      disclosure := (by decide : js "COMMITMENT_ONLY" ∈ disclosures) }

/-- What the verifier asks of the times of a webhook. -/
structure WebhookParts.Timely (parts : WebhookParts) : Prop where
  recordedAt : validTimestampText parts.recordedAt = true
  occurredAt : validUtcTimestamp (some (.str parts.occurredAt)) = true
  recordedAfter : 0 ≤ compareTimestamps (some (.str parts.recordedAt))
    (some (.str parts.occurredAt))

/-- The events of a webhook are of the profile when their times are. -/
theorem Received.eventOk (h : Received host relay w r parts) (hissuer : relay.issuerId ≠ [])
    (hrefund : r.refundId ≠ []) (htimely : parts.Timely) :
    ∀ event ∈ r.observation.events, EventOk host.toRuntime [relay.issuerId] (.obj event) := by
  intro event hevent
  have hall := collect_eq_ok.mp h.events
  have hok : Except.ok event ∈ (eventDescriptors r.stripeEvent).map _ :=
    hall ▸ List.mem_map_of_mem hevent
  obtain ⟨d, hd, hmade⟩ := List.mem_map.mp hok
  rw [stripeOutcomeEvent] at hmade
  have hdescriptor := descriptor_ok hd
  have hactor : EntityOk (some (clone stripeActor)) := by
    rw [stripeActor, clone]
    simp only [cloneMembers, clone_str]
    exact ⟨rfl, rfl, rfl, .inr rfl⟩
  have hsubject : EntityOk (some (clone (refundSubject r.refundId))) := by
    rw [refundSubject, clone]
    simp only [cloneMembers, clone_str]
    exact ⟨rfl, rfl, isNonEmptyString_str.mpr hrefund, .inr rfl⟩
  apply (createOutcomeEvent_ok_iff hmade).mpr
  exact
    { eventId := List.append_ne_nil_of_left_ne_nil (List.append_ne_nil_of_left_ne_nil
        (List.append_ne_nil_of_left_ne_nil (by decide) _) _) _
      phase := hdescriptor.phase
      eventType := hdescriptor.eventType
      status := hdescriptor.status
      sourceClass := (by decide : js "SYSTEM_OF_RECORD" ∈ sourceClasses)
      occurredAt := htimely.occurredAt
      recordedAt := htimely.recordedAt
      recordedAfter := htimely.recordedAfter
      issuerRef := ⟨List.mem_singleton_self _, hissuer⟩
      parents := ⟨[], rfl, List.nodup_nil⟩
      evidenceRefs := List.nodup_singleton _
      actor := hactor
      subject := hsubject
      claim := rfl
      vocabulary := hdescriptor.vocabulary }

theorem Received.id_eq (h : Received host relay w r parts) :
    ∃ value, parts.id = normalizedId value := by
  have hid := h.id
  unfold normalizedIdOf at hid
  split at hid
  · exact ⟨_, (Except.ok.inj hid).symm⟩
  · cases hid

/-- The relationships of a webhook are of the profile. -/
theorem Received.relationshipOk (h : Received host relay w r parts) :
    ∀ relationship ∈ r.observation.relationships,
      RelationshipOk host.toRuntime (.obj relationship) := by
  intro relationship hmem
  have hall := collect_eq_ok.mp h.relationships
  have hok : Except.ok relationship ∈ (eventDescriptors r.stripeEvent).mapIdx _ :=
    hall ▸ List.mem_map_of_mem hmem
  obtain ⟨i, hi, hmade⟩ := List.mem_mapIdx.mp hok
  obtain ⟨value, hvalue⟩ := h.id_eq
  have hid : isRefText parts.id = true := hvalue ▸ isRefText_normalizedId value
  have hsuffix : ∀ d ∈ refundDescriptors, isRefText (js "_" ++ d.suffix) = true := by decide
  have hd := mem_refundDescriptors (List.getElem_mem hi)
  rw [stripeRelationship] at hmade
  apply (createRelationship_ok_iff hmade).mpr
  exact
    { relationshipId := List.append_ne_nil_of_left_ne_nil (List.append_ne_nil_of_left_ne_nil
        (List.append_ne_nil_of_left_ne_nil (by decide) _) _) _
      relationshipType := (by decide : js "SUPPORTS" ∈ relationshipTypes)
      fromRef := by
        show relationshipRefPattern.test (ObjectKind.evidence.ref parts.evidenceId) = true
        rw [WebhookParts.evidenceId,
          ObjectKind.test_ref _ (List.append_ne_nil_of_left_ne_nil (by decide) _)]
        exact isRefText_append (by decide) hid
      toRef := by
        show relationshipRefPattern.test (ObjectKind.event.ref _) = true
        rw [ObjectKind.test_ref, List.append_assoc]
        · exact isRefText_append (isRefText_append (by decide) hid) (hsuffix _ hd)
        · exact List.append_ne_nil_of_left_ne_nil (List.append_ne_nil_of_left_ne_nil
            (List.append_ne_nil_of_left_ne_nil (by decide) _) _) _
      distinct := by
        intro heq
        have hrefs : ObjectKind.evidence.ref parts.evidenceId = ObjectKind.event.ref _ := heq
        exact absurd (ObjectKind.ref_inj hrefs).1 (by decide)
      vocabulary := ObjectKind.vocabulary_supports _ _ }

/-- A new event of a revision: the digest of an event of the pool is its only parent. -/
def LinkedTo (rt : Runtime) (events : List Members) (pool : List Json) (linked : Members) : Prop :=
  ∃ event ∈ events, ∃ cause ∈ pool, ∃ digest, Links rt event [digest] linked ∧
    get (some cause) (js "object_digest") = some digest ∧ validDigest (some digest) = true

theorem LinkedTo.mono {rt : Runtime} {events events' : List Members} {pool pool' : List Json}
    {linked : Members} (h : LinkedTo rt events pool linked) (hevents : events ⊆ events')
    (hpool : pool ⊆ pool') : LinkedTo rt events' pool' linked := by
  obtain ⟨event, hevent, cause, hcause, digest, hlinks⟩ := h
  exact ⟨event, hevents hevent, cause, hpool hcause, digest, hlinks⟩

/-- Each new event has the digest of the event before it as its parent. -/
theorem linkEvents_linked {cause digest : Json} {events linked : List Members} {pool : List Json}
    (h : linkEvents host (some digest) events = .ok linked)
    (hevents : ∀ event ∈ events, exactKeys (some (.obj event)) eventKeys = true ∧
      Plain (.obj event))
    (hcause : cause ∈ pool) (hplain : Plain cause)
    (hdigest : get (some cause) (js "object_digest") = some digest)
    (hvalid : validDigest (some digest) = true) :
    idsOf (js "event_id") (linked.map .obj) = idsOf (js "event_id") (events.map .obj) ∧
      ∀ new ∈ linked, LinkedTo host.toRuntime events (pool ++ linked.map .obj) new := by
  induction events generalizing cause digest linked pool with
  | nil =>
    cases h
    exact ⟨rfl, fun new hnew ↦ (List.not_mem_nil hnew).elim⟩
  | cons event rest ih =>
    unfold linkEvents at h
    obtain ⟨first, hfirst, h⟩ := bind_eq_ok_iff.mp h
    obtain ⟨more, hmore, h⟩ := bind_eq_ok_iff.mp h
    obtain rfl := Except.ok.inj h
    obtain ⟨hex, hisDigest, -⟩ := validDigest_iff.mp hvalid
    simp only [hisDigest.truthy, if_true] at hfirst
    have hlinks : Links host.toRuntime event [digest] first :=
      { keys := (hevents event List.mem_cons_self).1
        plain := (hevents event List.mem_cons_self).2
        plainParents := List.forall_mem_singleton.mpr (hplain.get hdigest)
        eq := hfirst }
    have hfirstValid := (digestMatches_withObjectDigest hfirst).valid
    obtain ⟨digest', hdigest'⟩ : ∃ digest', member first (js "object_digest") = some digest' := by
      obtain ⟨hex', hfirstDigest, -⟩ := validDigest_iff.mp hfirstValid
      obtain ⟨ms, hms, -⟩ := exactKeys_iff.mp hfirstDigest.keys
      exact ⟨_, hms⟩
    rw [hdigest'] at hmore hfirstValid
    have hpool : (Json.obj first) ∈ pool ++ [.obj first] :=
      List.mem_append_right pool List.mem_cons_self
    obtain ⟨hids, hlinked⟩ := ih hmore
      (fun event hevent ↦ hevents event (List.mem_cons_of_mem _ hevent)) hpool
      (plain_withObjectDigest hfirst) hdigest' hfirstValid
    have hid : stringId (js "event_id") (.obj first) = stringId (js "event_id") (.obj event) := by
      unfold stringId
      rw [hlinks.get_eq (by decide) (by decide)]
    constructor
    · have hfirstId : idsOf (js "event_id") [.obj first] = idsOf (js "event_id") [.obj event] := by
        rw [idsOf, idsOf, List.filterMap_cons, List.filterMap_cons, hid]
      have hfirsts := idsOf_append (js "event_id") [.obj first] (more.map .obj)
      have hothers := idsOf_append (js "event_id") [.obj event] (rest.map .obj)
      rw [hfirstId, hids, ← hothers] at hfirsts
      exact hfirsts
    · rw [List.forall_mem_cons]
      constructor
      · exact ⟨event, List.mem_cons_self, cause, List.mem_append_left _ hcause, digest, hlinks,
          hdigest, hvalid⟩
      · intro new hnew
        apply (hlinked new hnew).mono (List.subset_cons_self event rest)
        rw [List.append_assoc]
        exact List.Subset.refl _

end

end TimeProofs.Relay
