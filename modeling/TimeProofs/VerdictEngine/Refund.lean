import TimeProofs.Core.Integrity

/-!
# The refund verdict

`packages/verdict-engine/src/index.mjs`. The filters run on a bundle that `verifyBundle` did not
reject, whose events have string members.
-/

namespace TimeProofs.VerdictEngine

open TimeProofs.Base TimeProofs.Json TimeProofs.Core

/-- The verdicts of the refund ruleset. -/
inductive Verdict where
  | verified
  | pending
  | contradicted
  | unprovable
deriving DecidableEq

/-- What `evaluateRefund` returns. -/
structure Evaluation where
  ruleset : JsString
  verdict : Verdict
  reason : JsString
  verification : Option Verification
  decisiveEvents : Option (List (Option Json))

/-- `STRONG_SOURCES`. -/
def strongSources : List JsString := [js "SYSTEM_OF_RECORD", js "INDEPENDENTLY_SETTLED"]

/-- `proofCoversEvent`, `index.mjs:5–11`. -/
def proofCoversEvent (validProofs : List ValidProof) (event : Json) : Bool :=
  validProofs.any fun proof ↦
    strictEqual proof.issuerRef (get (some event) (js "issuer_ref")) &&
      isText (get proof.target (js "target_type")) (js "OUTCOME_EVENT") &&
      strictEqual (get proof.target (js "target_id")) (get (some event) (js "event_id"))

/-- The comparison of `chronological`, `index.mjs:15–16`. -/
def compareEvents (rt : Runtime) (left right : Json) : Int :=
  let timeDifference :=
    compareTimestamps (get (some left) (js "occurred_at")) (get (some right) (js "occurred_at"))
  if timeDifference ≠ 0 then timeDifference
  else rt.localeCompare (stringOf (get (some left) (js "event_id")))
    (stringOf (get (some right) (js "event_id")))

/-- `chronological`, `index.mjs:13–18`. -/
def chronological (rt : Runtime) (events : List Json) : List Json :=
  events.insertionSort fun left right ↦ compareEvents rt left right ≤ 0

/-- `event.event_type.startsWith('commerce.refund.')`. -/
def isRefundEvent (event : Json) : Bool :=
  (js "commerce.refund.").isPrefixOf (stringOf (get (some event) (js "event_type")))

/-- An event of one of the given types with one of the given statuses. -/
def isAssertion (types statuses : List JsString) (event : Json) : Bool :=
  isOneOf types (get (some event) (js "event_type")) &&
    isOneOf statuses (get (some event) (js "status"))

def isSettled : Json → Bool := isAssertion [js "commerce.refund.settled"] [js "SUCCEEDED"]

def isReversed : Json → Bool :=
  isAssertion [js "commerce.refund.reversed", js "commerce.refund.settlement_reversed"]
    [js "SUCCEEDED", js "REVERSED"]

def isFailedSettlement (event : Json) : Bool :=
  isAssertion [js "commerce.refund.settlement_failed"] [js "FAILED"] event ||
    isAssertion [js "commerce.refund.settled"] [js "FAILED"] event

def isPendingSettlement : Json → Bool :=
  isAssertion [js "commerce.refund.settlement_pending"] [js "PENDING"]

def isCancelled : Json → Bool := isAssertion [js "commerce.refund.cancelled"] [js "CANCELLED"]

def isCreated : Json → Bool := isAssertion [js "commerce.refund.created"] [js "SUCCEEDED"]

def isAccepted : Json → Bool :=
  isAssertion [js "commerce.refund.accepted", js "commerce.refund.created"] [js "SUCCEEDED"]

/-- The event ids of a group of events. -/
def eventIds (events : List Json) : List (Option Json) :=
  events.map fun event ↦ get (some event) (js "event_id")

/-- A strong event that a valid proof of its issuer covers, `index.mjs:36`. -/
def isQualifying (validProofs : List ValidProof) (event : Json) : Bool :=
  isOneOf strongSources (get (some event) (js "source_class")) &&
    proofCoversEvent validProofs event

/-- The verdict on the refund events, `index.mjs:36–92`. -/
def verdictOn (ruleset : JsString) (verification : Verification) (events : List Json) :
    Evaluation :=
  let qualifying := events.filter (isQualifying verification.validProofs)
  let settled := qualifying.filter isSettled
  let reversed := qualifying.filter isReversed
  let failedSettlement := qualifying.filter isFailedSettlement
  let pendingSettlement := qualifying.filter isPendingSettlement
  let cancelled := qualifying.filter isCancelled
  let created := qualifying.filter isCreated
  let accepted := events.filter isAccepted
  if 0 < reversed.length ∨ 0 < cancelled.length ∨ 0 < failedSettlement.length then
    { ruleset
      verdict := .contradicted
      reason :=
        if 0 < reversed.length then js "OUTCOME_REVERSED"
        else if 0 < cancelled.length then js "OUTCOME_CANCELLED"
        else js "SETTLEMENT_FAILED"
      verification := some verification
      decisiveEvents := some (eventIds (settled ++ failedSettlement ++ cancelled ++ reversed)) }
  else if 0 < settled.length then
    { ruleset
      verdict := .verified
      reason := js "SETTLEMENT_CONFIRMED_BY_STRONG_SIGNED_SOURCE"
      verification := some verification
      decisiveEvents := some (eventIds settled) }
  else if 0 < pendingSettlement.length ∨ 0 < created.length ∨ 0 < accepted.length then
    { ruleset
      verdict := .pending
      reason :=
        if 0 < pendingSettlement.length then js "SETTLEMENT_PENDING"
        else if 0 < created.length then js "REFUND_CREATED_WITHOUT_SETTLEMENT"
        else js "REFUND_ACCEPTED_WITHOUT_SETTLEMENT"
      verification := some verification
      decisiveEvents := some (eventIds
        (if 0 < pendingSettlement.length then pendingSettlement
          else if 0 < created.length then created else accepted)) }
  else
    { ruleset
      verdict := .unprovable
      reason := js "NO_SUFFICIENT_SIGNED_SYSTEM_EVIDENCE"
      verification := some verification
      decisiveEvents := some [] }

/-- The evaluation without evidence. -/
def unprovable (ruleset : JsString) (reason : String) (verification : Option Verification) :
    Evaluation :=
  { ruleset, verdict := .unprovable, reason := js reason, verification, decisiveEvents := none }

/-- `'refund-v0.1'`. -/
def refundRuleset : JsString := js "refund-v0.1"

/-- `evaluateRefund`, `index.mjs:20–93`. A text has no `payload`, so reading its events throws. -/
def evaluateRefund (rt : Runtime) (bundle : Json) (ruleset : JsString) :
    Except Thrown Evaluation :=
  if ruleset ≠ refundRuleset then .ok (unprovable ruleset "RULESET_NOT_SUPPORTED" none)
  else
    match verifyBundle rt bundle with
    | .error thrown => .error thrown
    | .ok verification =>
      if verification.status = .invalid then
        .ok (unprovable ruleset "BUNDLE_INVALID" (some verification))
      else
        match bundle with
        | .obj members => .ok (verdictOn ruleset verification
            ((chronological rt (sectionsOf members).events).filter isRefundEvent))
        | _ => .error .memberOfNull

/-- `evaluateBundle`, `index.mjs:95–98`. -/
def evaluateBundle (rt : Runtime) (bundle : Json) (ruleset : JsString) :
    Except Thrown Evaluation :=
  if ruleset = refundRuleset then evaluateRefund rt bundle ruleset
  else .ok (unprovable ruleset "RULESET_NOT_SUPPORTED" none)

private theorem exists_length_filter {p : Json → Bool} {events : List Json} :
    0 < (events.filter p).length ↔ ∃ event ∈ events, p event = true := by
  rw [List.length_pos_iff_exists_mem]
  simp only [List.mem_filter]

/-- VERIFIED asks for a qualifying settlement and no qualifying contradiction. -/
theorem verdictOn_verified_iff {ruleset : JsString} {verification : Verification}
    {events : List Json} :
    (verdictOn ruleset verification events).verdict = .verified ↔
      (∃ event ∈ events, isQualifying verification.validProofs event = true ∧
        isSettled event = true) ∧
      ¬∃ event ∈ events, isQualifying verification.validProofs event = true ∧
        (isReversed event = true ∨ isCancelled event = true ∨
          isFailedSettlement event = true) := by
  unfold verdictOn
  simp only [List.filter_filter, exists_length_filter, Bool.and_eq_true]
  split_ifs with h₁ h₂ h₃
  · simp only [false_iff, not_and, not_not]
    intro _
    rcases h₁ with ⟨e, he, h, hq⟩ | ⟨e, he, h, hq⟩ | ⟨e, he, h, hq⟩
    · exact ⟨e, he, hq, .inl h⟩
    · exact ⟨e, he, hq, .inr (.inl h)⟩
    · exact ⟨e, he, hq, .inr (.inr h)⟩
  · simp only [true_iff]
    obtain ⟨e, he, h, hq⟩ := h₂
    refine ⟨⟨e, he, hq, h⟩, ?_⟩
    rintro ⟨e, he, hq, h | h | h⟩
    · exact h₁ (.inl ⟨e, he, h, hq⟩)
    · exact h₁ (.inr (.inl ⟨e, he, h, hq⟩))
    · exact h₁ (.inr (.inr ⟨e, he, h, hq⟩))
  all_goals
    simp only [false_iff, not_and]
    rintro ⟨e, he, hq, h⟩
    exact absurd ⟨e, he, h, hq⟩ h₂

/-- Without qualifying events the verdict only asks for an acceptance. -/
theorem verdictOn_unprovable_iff {ruleset : JsString} {verification : Verification}
    {events : List Json}
    (hweak : ∀ event ∈ events, isQualifying verification.validProofs event = false) :
    (verdictOn ruleset verification events).verdict = .unprovable ↔
      ∀ event ∈ events, isAccepted event = false := by
  have hnone (p : Json → Bool) :
      ¬∃ event ∈ events, p event = true ∧ isQualifying verification.validProofs event = true := by
    rintro ⟨event, hevent, -, hq⟩
    rw [hweak event hevent] at hq
    cases hq
  unfold verdictOn
  simp only [List.filter_filter, exists_length_filter, Bool.and_eq_true, hnone, or_self,
    if_false, false_or]
  split_ifs with h
  · obtain ⟨event, hevent, ha⟩ := h
    simp only [false_iff, not_forall, Bool.not_eq_false]
    exact ⟨event, hevent, ha⟩
  · simp only [true_iff]
    exact fun event hevent ↦ Bool.eq_false_iff.mpr fun ha ↦ h ⟨event, hevent, ha⟩

/-- The verdict asks for contradictions first, then for settlements, then for anything else. -/
theorem verdictOn_verdict (ruleset : JsString) (verification : Verification)
    (events : List Json) : (verdictOn ruleset verification events).verdict =
      if ∃ event ∈ events, isQualifying verification.validProofs event = true ∧
          (isReversed event = true ∨ isCancelled event = true ∨
            isFailedSettlement event = true) then .contradicted
      else if ∃ event ∈ events, isQualifying verification.validProofs event = true ∧
          isSettled event = true then .verified
      else if ∃ event ∈ events, (isQualifying verification.validProofs event = true ∧
          (isPendingSettlement event = true ∨ isCreated event = true)) ∨
            isAccepted event = true then .pending
      else .unprovable := by
  have hany (p q r : Json → Prop) :
      ((∃ event ∈ events, p event) ∨ (∃ event ∈ events, q event) ∨ ∃ event ∈ events, r event) ↔
        ∃ event ∈ events, p event ∨ q event ∨ r event := by
    simp only [← exists_or, ← and_or_left]
  unfold verdictOn
  simp only [List.filter_filter, exists_length_filter, Bool.and_eq_true, hany]
  simp only [and_comm (b := isQualifying _ _ = true), ← and_or_left, ← or_assoc]
  split_ifs <;> rfl

section

variable {rt : Runtime} {issuerIds : List JsString} {event : Json}

theorem isAssertion_iff {types statuses : List JsString} :
    isAssertion types statuses event = true ↔
      isOneOf types (get (some event) (js "event_type")) = true ∧
        isOneOf statuses (get (some event) (js "status")) = true := by
  rw [isAssertion, Bool.and_eq_true]

/-- For a registered type the vocabulary decides the status. -/
theorem isAssertion_registered (h : EventOk rt issuerIds event) {eventType : JsString}
    {statuses : List JsString} (phase : JsString) (allowed : List JsString)
    (hrule : ⟨eventType, phase, allowed⟩ ∈ eventTypeRules)
    (hall : ∀ status ∈ allowed, status ∈ statuses) :
    isAssertion [eventType] statuses event = true ↔
      get (some event) (js "event_type") = some (.str eventType) := by
  rw [isAssertion_iff]
  simp only [isOneOf_iff, List.mem_singleton, exists_eq_left, and_iff_left_iff_imp]
  intro htype
  obtain ⟨status, -, hstatus⟩ := isOneOf_iff.mp h.status
  refine ⟨status, hall status ?_, hstatus⟩
  simpa [hstatus, stringOf] using (h.registered htype (ruleOf_of_mem hrule)).2

theorem isSettled_iff (h : EventOk rt issuerIds event) :
    isSettled event = true ↔
      get (some event) (js "event_type") = some (.str (js "commerce.refund.settled")) :=
  isAssertion_registered h (js "SETTLEMENT") [js "SUCCEEDED"] (by simp [eventTypeRules])
    fun _ ↦ id

theorem isCancelled_iff (h : EventOk rt issuerIds event) :
    isCancelled event = true ↔
      get (some event) (js "event_type") = some (.str (js "commerce.refund.cancelled")) :=
  isAssertion_registered h (js "TERMINATION") [js "CANCELLED"] (by simp [eventTypeRules])
    fun _ ↦ id

private theorem settlement_reversed_unregistered :
    startsWithReservedNamespace (some (.str (js "commerce.refund.settlement_reversed"))) =
      .ok true ∧ ruleOf (js "commerce.refund.settlement_reversed") = none :=
  ⟨rfl, by decide⟩

/-- The unregistered reversal type is reserved, so no accepted event has it. -/
theorem isReversed_iff (h : EventOk rt issuerIds event) :
    isReversed event = true ↔
      get (some event) (js "event_type") = some (.str (js "commerce.refund.reversed")) := by
  have hregistered : isAssertion [js "commerce.refund.reversed"] [js "SUCCEEDED", js "REVERSED"]
      event = true ↔
      get (some event) (js "event_type") = some (.str (js "commerce.refund.reversed")) :=
    isAssertion_registered h (js "TERMINATION") [js "REVERSED"]
      (by simp [eventTypeRules]) (by simp)
  have hunregistered : get (some event) (js "event_type") ≠
      some (.str (js "commerce.refund.settlement_reversed")) := fun htype ↦ by
    have hsome := h.ruleOf_isSome htype settlement_reversed_unregistered.1
    simp [settlement_reversed_unregistered.2] at hsome
  rw [← hregistered, isReversed, isAssertion_iff, isAssertion_iff]
  simp only [isOneOf_iff, List.mem_cons, List.not_mem_nil, or_false]
  refine and_congr_left fun _ ↦ ⟨?_, ?_⟩
  · rintro ⟨t, rfl | rfl, ht⟩
    · exact ⟨_, rfl, ht⟩
    · exact absurd ht hunregistered
  · rintro ⟨t, rfl, ht⟩
    exact ⟨_, .inl rfl, ht⟩

/-- A settled event cannot have failed, so only the failure type counts. -/
theorem isFailedSettlement_iff (h : EventOk rt issuerIds event) :
    isFailedSettlement event = true ↔
      get (some event) (js "event_type") =
        some (.str (js "commerce.refund.settlement_failed")) := by
  have hfailed : isAssertion [js "commerce.refund.settlement_failed"] [js "FAILED"] event = true ↔
      get (some event) (js "event_type") =
        some (.str (js "commerce.refund.settlement_failed")) :=
    isAssertion_registered h (js "SETTLEMENT") [js "FAILED"] (by simp [eventTypeRules])
      fun _ ↦ id
  have hsettled : isAssertion [js "commerce.refund.settled"] [js "FAILED"] event = false := by
    rw [← Bool.not_eq_true, isAssertion_iff]
    simp only [isOneOf_iff, List.mem_singleton, exists_eq_left]
    rintro ⟨htype, hstatus⟩
    have hrule : (⟨js "commerce.refund.settled", js "SETTLEMENT", [js "SUCCEEDED"]⟩ :
        EventTypeRule) ∈ eventTypeRules := by simp [eventTypeRules]
    have := (h.registered htype (ruleOf_of_mem hrule)).2
    rw [hstatus, stringOf, List.mem_singleton] at this
    exact absurd this (by decide)
  rw [isFailedSettlement, hsettled, Bool.or_false, hfailed]

/-- An accepted event of one of the two acceptance types has succeeded. -/
theorem isAccepted_iff (h : EventOk rt issuerIds event) :
    isAccepted event = true ↔
      isOneOf [js "commerce.refund.accepted", js "commerce.refund.created"]
        (get (some event) (js "event_type")) = true := by
  rw [isAccepted, isAssertion_iff, and_iff_left_iff_imp]
  intro htypes
  obtain ⟨t, ht, htype⟩ := isOneOf_iff.mp htypes
  have hassertion : isAssertion [t] [js "SUCCEEDED"] event = true := by
    simp only [List.mem_cons, List.not_mem_nil, or_false] at ht
    rcases ht with rfl | rfl
    · exact (isAssertion_registered h (js "ACCEPTANCE") [js "SUCCEEDED"]
        (by simp [eventTypeRules]) fun _ ↦ id).mpr htype
    · exact (isAssertion_registered h (js "EFFECT") [js "SUCCEEDED"]
        (by simp [eventTypeRules]) fun _ ↦ id).mpr htype
  exact (isAssertion_iff.mp hassertion).2

end

/-! ### Signed events -/

/-- A proof of the bundle that is signed by the issuer of an event over the recomputed digest of
that event. -/
def EventSigned (rt : Runtime) (bundle : Members) (event : Json) : Prop :=
  ∃ proof, .obj proof ∈ (sectionsOf bundle).proofs ∧
    member proof (js "issuer_ref") = get (some event) (js "issuer_ref") ∧
    get (member proof (js "target")) (js "target_type") = some (.str (js "OUTCOME_EVENT")) ∧
    get (member proof (js "target")) (js "target_id") = get (some event) (js "event_id") ∧
    ∃ hex issuerId keyId issuer key input, contentHash rt (membersOf (some event)) = .ok hex ∧
      Signer (sectionsOf bundle).issuers proof issuerId keyId issuer key ∧
      signingInput rt (some (.str (js "OUTCOME_EVENT"))) hex = .ok input ∧
      SignedBy rt key proof input

/-- A strong event that is signed by its issuer. -/
def Backed (rt : Runtime) (bundle : Members) (event : Json) : Prop :=
  isOneOf strongSources (get (some event) (js "source_class")) = true ∧
    EventSigned rt bundle event

/-- In an accepted bundle a valid proof that covers an event signs its recomputed digest. -/
theorem proofCoversEvent_iff {rt : Runtime} {bundle : Members} (h : Accepted rt bundle)
    {event : Json} (hevent : event ∈ (sectionsOf bundle).events) :
    proofCoversEvent (validProofs rt bundle (sectionsOf bundle)) event = true ↔
      EventSigned rt bundle event := by
  obtain ⟨issuerId, -, hissuer⟩ := isOneOf_iff.mp (h.events event hevent).issuerRef
  obtain ⟨id, hid, -⟩ := isNonEmptyString_iff.mp
    ((h.events event hevent).texts "event_id" (by decide))
  simp only [proofCoversEvent, h.validProofs_eq, List.any_map, List.any_eq_true,
    Function.comp_apply, validEntry, Bool.and_eq_true, hissuer, hid, strictEqual_str, isText_iff]
  constructor
  · rintro ⟨proof, hproof, ⟨href, htype⟩, htarget⟩
    obtain ⟨members, rfl, hok, hresult⟩ := h.proofs proof hproof
    obtain ⟨object, content, hex, issuerId', keyId, issuer, key, hs⟩ :=
      (proofResult_iff h.toContentOk hok).mp hresult
    obtain ⟨input, hinput, hsigned⟩ := hs.signature
    simp only [Core.get] at href
    rw [show get (some (.obj members)) (js "target") = member members (js "target") from rfl]
      at htype htarget
    rw [htype] at hinput
    refine ⟨members, hproof, href.trans hissuer.symm, htype, htarget.trans hid.symm, hex,
      issuerId', keyId, issuer, key, input, ?_, hs.signer, hinput, hsigned⟩
    have hhash := hs.hash
    cases hs.names with
    | payload htype' =>
      rw [htype] at htype'
      exact absurd (Json.str.inj (Option.some.inj htype')) (by decide)
    | object htype' hcollection hid' honly =>
      rw [htype] at htype'
      obtain rfl := Json.str.inj (Option.some.inj htype')
      rw [targetCollection, if_pos rfl] at hcollection
      obtain ⟨rfl, rfl⟩ := Prod.mk.inj (Option.some.inj hcollection)
      rw [htarget] at hid'
      obtain rfl := Json.str.inj (Option.some.inj hid')
      obtain rfl := honly.eq hevent hid
      exact hhash
  · rintro ⟨proof, hproof, href, htype, htarget, -⟩
    exact ⟨_, hproof, ⟨href.trans hissuer, htype⟩, htarget.trans hid⟩

/-- In an accepted bundle every proof counts, so one that names an event and its issuer covers
it. -/
theorem proofCoversEvent_of_mem {rt : Runtime} {bundle : Members} (h : Accepted rt bundle)
    {event proof : Json} (hevent : event ∈ (sectionsOf bundle).events)
    (hproof : proof ∈ (sectionsOf bundle).proofs)
    (hissuer : get (some proof) (js "issuer_ref") = get (some event) (js "issuer_ref"))
    (htype : get (get (some proof) (js "target")) (js "target_type") =
      some (.str (js "OUTCOME_EVENT")))
    (hid : get (get (some proof) (js "target")) (js "target_id") =
      get (some event) (js "event_id")) :
    proofCoversEvent (validProofs rt bundle (sectionsOf bundle)) event = true := by
  obtain ⟨issuerId, -, hissuerId⟩ := isOneOf_iff.mp (h.events event hevent).issuerRef
  obtain ⟨id, heventId, -⟩ := isNonEmptyString_iff.mp
    ((h.events event hevent).texts "event_id" (by decide))
  rw [hissuerId] at hissuer
  rw [heventId] at hid
  simp only [proofCoversEvent, h.validProofs_eq, List.any_map, List.any_eq_true,
    Function.comp_apply, validEntry, Bool.and_eq_true, hissuerId, heventId, strictEqual_str,
    isText_iff]
  exact ⟨proof, hproof, ⟨hissuer, htype⟩, hid⟩

/-- A qualifying event of an accepted bundle is a backed one. -/
theorem isQualifying_iff {rt : Runtime} {bundle : Members} (h : Accepted rt bundle)
    {event : Json} (hevent : event ∈ (sectionsOf bundle).events) :
    isQualifying (validProofs rt bundle (sectionsOf bundle)) event = true ↔
      Backed rt bundle event := by
  rw [isQualifying, Bool.and_eq_true, proofCoversEvent_iff h hevent, Backed]

/-- The events of a bundle. -/
def eventsOf (bundle : Json) : List Json := (sectionsOf (membersOf (some bundle))).events

/-- What `evaluateRefund` returns on an accepted bundle. -/
theorem evaluateRefund_accepted {rt : Runtime} {bundle : Members} (h : Accepted rt bundle) :
    evaluateRefund rt (.obj bundle) refundRuleset =
      .ok (verdictOn refundRuleset (conclude rt bundle [])
        ((chronological rt (sectionsOf bundle).events).filter isRefundEvent)) := by
  have haccepts : verifyBundle rt (.obj bundle) = .ok (conclude rt bundle []) ∧
      (conclude rt bundle []).status ≠ .invalid :=
    verifyBundle_accepts.mpr ⟨rt, bundle, rfl, h, rfl⟩
  obtain ⟨hverify, hstatus⟩ := haccepts
  simp [evaluateRefund, hverify, hstatus]

theorem mem_chronological {rt : Runtime} {events : List Json} {event : Json} :
    event ∈ chronological rt events ↔ event ∈ events :=
  (List.perm_insertionSort _ events).mem_iff

/-- The event types that decide a verdict. -/
def decisiveTypes : List JsString :=
  [js "commerce.refund.settled", js "commerce.refund.reversed", js "commerce.refund.cancelled",
    js "commerce.refund.settlement_failed", js "commerce.refund.accepted",
    js "commerce.refund.created"]

private theorem isPrefixOf_decisiveTypes :
    ∀ eventType ∈ decisiveTypes, (js "commerce.refund.").isPrefixOf eventType = true := by
  decide

/-- An event that decides a verdict is a refund event. -/
theorem isRefundEvent_of_type {event : Json} {eventType : JsString}
    (h : get (some event) (js "event_type") = some (.str eventType))
    (hmem : eventType ∈ decisiveTypes) : isRefundEvent event = true := by
  rw [isRefundEvent, h]
  exact isPrefixOf_decisiveTypes eventType hmem

/-- VERIFIED is exactly a settlement that is backed by a strong source whose issuer signed it,
with no contradiction backed in the same way. -/
theorem evaluateRefund_verified_iff (rt : Runtime) (bundle : Json) :
    (∃ evaluation, evaluateRefund rt bundle refundRuleset = .ok evaluation ∧
      evaluation.verdict = .verified) ↔
    (∃ verification, verifyBundle rt bundle = .ok verification ∧
      verification.status ≠ .invalid) ∧
    (∃ event ∈ eventsOf bundle,
      get (some event) (js "event_type") = some (.str (js "commerce.refund.settled")) ∧
      get (some event) (js "status") = some (.str (js "SUCCEEDED")) ∧
      Backed rt (membersOf (some bundle)) event) ∧
    ¬∃ event ∈ eventsOf bundle,
      isOneOf [js "commerce.refund.reversed", js "commerce.refund.cancelled",
        js "commerce.refund.settlement_failed"] (get (some event) (js "event_type")) = true ∧
      Backed rt (membersOf (some bundle)) event := by
  constructor
  · rintro ⟨evaluation, heval, hverdict⟩
    obtain ⟨verification, hverify, hstatus, members, rfl⟩ :
        ∃ verification, verifyBundle rt bundle = .ok verification ∧
          verification.status ≠ .invalid ∧ ∃ members, bundle = .obj members := by
      rw [evaluateRefund, if_neg (not_not.mpr rfl)] at heval
      split at heval
      · cases heval
      · next verification hverify =>
        split at heval
        · cases heval
          exact absurd hverdict nofun
        · next hstatus =>
          split at heval
          · exact ⟨verification, hverify, hstatus, _, rfl⟩
          · cases heval
    obtain ⟨rt', members', hread, hok, -⟩ := verifyBundle_accepts.mp ⟨hverify, hstatus⟩
    cases hread
    rw [evaluateRefund_accepted hok] at heval
    cases heval
    obtain ⟨⟨event, hmem, hq, hsettled⟩, hnone⟩ := verdictOn_verified_iff.mp hverdict
    rw [List.mem_filter, mem_chronological] at hmem
    have heventOk := hok.events event hmem.1
    refine ⟨⟨verification, hverify, hstatus⟩, ⟨event, hmem.1,
      (isSettled_iff heventOk).mp hsettled, ?_, (isQualifying_iff hok hmem.1).mp hq⟩, ?_⟩
    · simpa [isOneOf_iff] using (isAssertion_iff.mp hsettled).2
    · rintro ⟨other, hother, htypes, hbacked⟩
      have hotherOk := hok.events other hother
      obtain ⟨t, ht, htype⟩ := isOneOf_iff.mp htypes
      have hrefund : isRefundEvent other = true := by
        apply isRefundEvent_of_type htype
        simp only [List.mem_cons, List.not_mem_nil, or_false] at ht
        rcases ht with rfl | rfl | rfl <;> simp [decisiveTypes]
      refine hnone ⟨other, List.mem_filter.mpr ⟨mem_chronological.mpr hother, hrefund⟩,
        (isQualifying_iff hok hother).mpr hbacked, ?_⟩
      rw [isReversed_iff hotherOk, isCancelled_iff hotherOk, isFailedSettlement_iff hotherOk]
      simp only [List.mem_cons, List.not_mem_nil, or_false] at ht
      rcases ht with rfl | rfl | rfl
      · exact .inl htype
      · exact .inr (.inl htype)
      · exact .inr (.inr htype)
  · rintro ⟨⟨verification, hverify, hstatus⟩, ⟨event, hevent, htype, -, hbacked⟩, hnone⟩
    obtain ⟨members, rfl⟩ : ∃ members, bundle = .obj members := by
      cases bundle with
      | obj members => exact ⟨members, rfl⟩
      | _ => simp [eventsOf, membersOf, sectionsOf, member, itemsOf] at hevent
    obtain ⟨rt', members', hread, hok, -⟩ := verifyBundle_accepts.mp ⟨hverify, hstatus⟩
    cases hread
    refine ⟨_, evaluateRefund_accepted hok, verdictOn_verified_iff.mpr ⟨⟨event, ?_, ?_, ?_⟩, ?_⟩⟩
    · exact List.mem_filter.mpr ⟨mem_chronological.mpr hevent,
        isRefundEvent_of_type htype (by simp [decisiveTypes])⟩
    · exact (isQualifying_iff hok hevent).mpr hbacked
    · exact (isSettled_iff (hok.events event hevent)).mpr htype
    · rintro ⟨other, hmem, hq, hcontradicts⟩
      rw [List.mem_filter, mem_chronological] at hmem
      have hotherOk := hok.events other hmem.1
      refine hnone ⟨other, hmem.1, ?_, (isQualifying_iff hok hmem.1).mp hq⟩
      rw [isReversed_iff hotherOk, isCancelled_iff hotherOk, isFailedSettlement_iff hotherOk]
        at hcontradicts
      rw [isOneOf_iff]
      rcases hcontradicts with h | h | h <;> exact ⟨_, by simp, h⟩

/-- On weak assertions alone the verdict is UNPROVABLE exactly when the bundle is rejected, or is
no text and has no acceptance or creation. -/
theorem evaluateRefund_weak_iff {rt : Runtime} {bundle : Json}
    (hreturns : Returns (verifyBundle rt bundle))
    (hweak : ∀ event ∈ eventsOf bundle, isRefundEvent event = true →
      isOneOf [js "SELF_CLAIMED", js "GATEWAY_OBSERVED"]
        (get (some event) (js "source_class")) = true) :
    (∃ evaluation, evaluateRefund rt bundle refundRuleset = .ok evaluation ∧
      evaluation.verdict = .unprovable) ↔
    (∃ verification, verifyBundle rt bundle = .ok verification ∧
      verification.status = .invalid) ∨
    (isString (some bundle) = false ∧ ∀ event ∈ eventsOf bundle,
      isOneOf [js "commerce.refund.accepted", js "commerce.refund.created"]
        (get (some event) (js "event_type")) = false) := by
  obtain ⟨verification, hverify⟩ := hreturns
  by_cases hstatus : verification.status = .invalid
  · refine iff_of_true ⟨unprovable refundRuleset "BUNDLE_INVALID" (some verification), ?_, rfl⟩
      (.inl ⟨verification, hverify, hstatus⟩)
    simp [evaluateRefund, hverify, hstatus]
  · obtain ⟨rt', members, hread, hok, -⟩ := verifyBundle_accepts.mp ⟨hverify, hstatus⟩
    have hinvalid : ¬∃ verification, verifyBundle rt bundle = .ok verification ∧
        verification.status = .invalid := by
      rintro ⟨verification', hverify', hstatus'⟩
      rw [hverify] at hverify'
      cases hverify'
      exact hstatus hstatus'
    rw [or_iff_right hinvalid]
    cases bundle with
    | str text =>
      simp only [isString, Bool.true_eq_false, false_and, iff_false]
      rintro ⟨evaluation, heval, -⟩
      simp [evaluateRefund, hverify, hstatus] at heval
    | obj members =>
      cases hread
      rw [evaluateRefund_accepted hok]
      simp only [Except.ok.injEq, exists_eq_left', isString, true_and]
      have hweak' : ∀ event ∈ (chronological rt (sectionsOf members).events).filter isRefundEvent,
          isQualifying (conclude rt members []).validProofs event = false := by
        intro event hmem
        rw [List.mem_filter, mem_chronological] at hmem
        obtain ⟨source, hsource, hget⟩ := isOneOf_iff.mp (hweak event hmem.1 hmem.2)
        have hnot : isOneOf strongSources (some (.str source)) = false := by
          simp only [List.mem_cons, List.not_mem_nil, or_false] at hsource
          rcases hsource with rfl | rfl <;> decide
        rw [isQualifying, hget, hnot, Bool.false_and]
      rw [verdictOn_unprovable_iff hweak']
      constructor
      · intro h event hevent
        rw [← Bool.not_eq_true, ← isAccepted_iff (hok.events event hevent)]
        intro haccepted
        obtain ⟨t, ht, htype⟩ := isOneOf_iff.mp (isAssertion_iff.mp haccepted).1
        have hrefund : isRefundEvent event = true := by
          apply isRefundEvent_of_type htype
          simp only [List.mem_cons, List.not_mem_nil, or_false] at ht
          rcases ht with rfl | rfl <;> simp [decisiveTypes]
        rw [h event (List.mem_filter.mpr ⟨mem_chronological.mpr hevent, hrefund⟩)] at haccepted
        cases haccepted
      · intro h event hmem
        rw [List.mem_filter, mem_chronological] at hmem
        rw [← Bool.not_eq_true, isAccepted_iff (hok.events event hmem.1), h event hmem.1]
        nofun
    | _ => cases hread

/-- A refund of which only an acceptance by a gateway is known. -/
def acceptedBundle : Json :=
  sampleBundle [sampleEvent "e2" "ACCEPTANCE" "commerce.refund.accepted" "GATEWAY_OBSERVED" []
    sampleAcceptedHash] [] [] []

private theorem acceptedBundleFacts :
    (verifyBundle sampleRuntime acceptedBundle).toOption.map Verification.status =
      some .incomplete ∧
    (∀ event ∈ eventsOf acceptedBundle, isRefundEvent event = true →
      isOneOf [js "SELF_CLAIMED", js "GATEWAY_OBSERVED"]
        (get (some event) (js "source_class")) = true) ∧
    (evaluateRefund sampleRuntime acceptedBundle refundRuleset).toOption.map
      Evaluation.verdict = some .pending := by
  decide +kernel

private theorem acceptedBundle_returns : Returns (verifyBundle sampleRuntime acceptedBundle) := by
  obtain ⟨result, hresult, -⟩ := exists_of_status acceptedBundleFacts.1
  exact ⟨result, hresult⟩

/-- The acceptance of a gateway, without any proof, moves the verdict. -/
theorem acceptedBundle_not_unprovable :
    Returns (verifyBundle sampleRuntime acceptedBundle) ∧
    (∀ event ∈ eventsOf acceptedBundle, isRefundEvent event = true →
      isOneOf [js "SELF_CLAIMED", js "GATEWAY_OBSERVED"]
        (get (some event) (js "source_class")) = true) ∧
    ¬∃ evaluation, evaluateRefund sampleRuntime acceptedBundle refundRuleset = .ok evaluation ∧
      evaluation.verdict = .unprovable := by
  refine ⟨acceptedBundle_returns, acceptedBundleFacts.2.1, ?_⟩
  have hpending := acceptedBundleFacts.2.2
  rintro ⟨evaluation, heval, hverdict⟩
  simp [heval, Except.toOption, hverdict] at hpending

theorem evaluateRefund_weak_accepted :
    (∃ evaluation, evaluateRefund sampleRuntime acceptedBundle refundRuleset = .ok evaluation ∧
      evaluation.verdict = .unprovable) ↔
    (∃ verification, verifyBundle sampleRuntime acceptedBundle = .ok verification ∧
      verification.status = .invalid) ∨
    (isString (some acceptedBundle) = false ∧ ∀ event ∈ eventsOf acceptedBundle,
      isOneOf [js "commerce.refund.accepted", js "commerce.refund.created"]
        (get (some event) (js "event_type")) = false) :=
  evaluateRefund_weak_iff acceptedBundle_returns acceptedBundleFacts.2.1

end TimeProofs.VerdictEngine
