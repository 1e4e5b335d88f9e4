import TimeProofs.Base.Only
import TimeProofs.Core.Constants
import TimeProofs.Core.Ecma
import TimeProofs.Core.ErrorCodes

/-!
# The event vocabulary

`packages/core/src/vocabulary.mjs` and the tables it reads from
`spec/outcome-event-vocabulary-v0.1.json`, as far as a function uses them.
-/

namespace TimeProofs.Core

open TimeProofs.Base TimeProofs.Json

/-- An entry of `event_types`. -/
structure EventTypeRule where
  eventType : JsString
  phase : JsString
  allowedStatuses : List JsString
deriving DecidableEq

/-- `document.phases`, with the allowed statuses of each phase. -/
def phaseStatuses : List (JsString × List JsString) :=
  [(js "INTENT", [js "PENDING", js "SUCCEEDED", js "FAILED"]),
    (js "AUTHORIZATION", [js "PENDING", js "SUCCEEDED", js "FAILED"]),
    (js "DISPATCH", [js "PENDING", js "SUCCEEDED", js "FAILED"]),
    (js "ACCEPTANCE", [js "PENDING", js "SUCCEEDED", js "FAILED", js "PARTIAL"]),
    (js "EFFECT", [js "PENDING", js "SUCCEEDED", js "FAILED", js "PARTIAL"]),
    (js "SETTLEMENT", [js "PENDING", js "SUCCEEDED", js "FAILED", js "PARTIAL"]),
    (js "TERMINATION", [js "SUCCEEDED", js "FAILED", js "CANCELLED", js "REVERSED", js "EXPIRED"])]

/-- `document.source_phase_rules`. -/
def sourcePhaseRules : List (JsString × List JsString) :=
  [(js "SELF_CLAIMED", [js "INTENT", js "AUTHORIZATION", js "DISPATCH", js "ACCEPTANCE", js
      "EFFECT", js "SETTLEMENT", js "TERMINATION"]),
    (js "GATEWAY_OBSERVED", [js "INTENT", js "AUTHORIZATION", js "DISPATCH", js "ACCEPTANCE",
      js "EFFECT", js "SETTLEMENT", js "TERMINATION"]),
    (js "RECEIVER_ATTESTED", [js "AUTHORIZATION", js "DISPATCH", js "ACCEPTANCE", js "EFFECT",
      js "SETTLEMENT", js "TERMINATION"]),
    (js "SYSTEM_OF_RECORD", [js "AUTHORIZATION", js "ACCEPTANCE", js "EFFECT", js
      "SETTLEMENT", js "TERMINATION"]),
    (js "INDEPENDENTLY_SETTLED", [js "SETTLEMENT", js "TERMINATION"])]

/-- The allowed kinds of the two endpoints of a relationship. -/
structure RelationshipSemantic where
  allowedFrom : List JsString
  allowedTo : List JsString

/-- `document.relationship_semantics`. -/
def relationshipSemantics : List (JsString × RelationshipSemantic) :=
  [(js "SUPPORTS", ⟨[js "evidence", js "event"], [js "event"]⟩),
    (js "CONTRADICTS", ⟨[js "evidence", js "event"], [js "evidence", js "event"]⟩),
    (js "SUPERSEDES", ⟨[js "event"], [js "event"]⟩),
    (js "REVERSES", ⟨[js "event"], [js "event"]⟩),
    (js "CORRESPONDS_TO",
      ⟨[js "event", js "evidence", js "issuer"],
        [js "event", js "evidence", js "issuer"]⟩)]

/-- `RESERVED_EVENT_NAMESPACES`. -/
def reservedEventNamespaces : List JsString :=
  [js "commerce.refund", js "messaging.email", js "calendar.appointment", js "org.timeproofs"]

/-- `EVENT_TYPE_RULES`. -/
def eventTypeRules : List EventTypeRule :=
  [⟨js "commerce.refund.requested", js "INTENT", [js "SUCCEEDED"]⟩,
    ⟨js "commerce.refund.authorized", js "AUTHORIZATION", [js "SUCCEEDED"]⟩,
    ⟨js "commerce.refund.authorization_failed", js "AUTHORIZATION", [js "FAILED"]⟩,
    ⟨js "commerce.refund.dispatched", js "DISPATCH", [js "SUCCEEDED"]⟩,
    ⟨js "commerce.refund.dispatch_failed", js "DISPATCH", [js "FAILED"]⟩,
    ⟨js "commerce.refund.accepted", js "ACCEPTANCE", [js "SUCCEEDED"]⟩,
    ⟨js "commerce.refund.rejected", js "ACCEPTANCE", [js "FAILED"]⟩,
    ⟨js "commerce.refund.created", js "EFFECT", [js "SUCCEEDED"]⟩,
    ⟨js "commerce.refund.creation_failed", js "EFFECT", [js "FAILED"]⟩,
    ⟨js "commerce.refund.settlement_pending", js "SETTLEMENT", [js "PENDING"]⟩,
    ⟨js "commerce.refund.settled", js "SETTLEMENT", [js "SUCCEEDED"]⟩,
    ⟨js "commerce.refund.settlement_failed", js "SETTLEMENT", [js "FAILED"]⟩,
    ⟨js "commerce.refund.cancelled", js "TERMINATION", [js "CANCELLED"]⟩,
    ⟨js "commerce.refund.expired", js "TERMINATION", [js "EXPIRED"]⟩,
    ⟨js "commerce.refund.reversed", js "TERMINATION", [js "REVERSED"]⟩,
    ⟨js "messaging.email.requested", js "INTENT", [js "SUCCEEDED"]⟩,
    ⟨js "messaging.email.dispatched", js "DISPATCH", [js "SUCCEEDED"]⟩,
    ⟨js "messaging.email.dispatch_failed", js "DISPATCH", [js "FAILED"]⟩,
    ⟨js "messaging.email.accepted", js "ACCEPTANCE", [js "SUCCEEDED"]⟩,
    ⟨js "messaging.email.rejected", js "ACCEPTANCE", [js "FAILED"]⟩,
    ⟨js "messaging.email.recorded", js "EFFECT", [js "SUCCEEDED"]⟩,
    ⟨js "messaging.email.delivery_pending", js "SETTLEMENT", [js "PENDING"]⟩,
    ⟨js "messaging.email.delivered", js "SETTLEMENT", [js "SUCCEEDED"]⟩,
    ⟨js "messaging.email.delivery_failed", js "SETTLEMENT", [js "FAILED"]⟩,
    ⟨js "messaging.email.cancelled", js "TERMINATION", [js "CANCELLED"]⟩,
    ⟨js "messaging.email.recalled", js "TERMINATION", [js "REVERSED"]⟩,
    ⟨js "calendar.appointment.requested", js "INTENT", [js "SUCCEEDED"]⟩,
    ⟨js "calendar.appointment.dispatched", js "DISPATCH", [js "SUCCEEDED"]⟩,
    ⟨js "calendar.appointment.dispatch_failed", js "DISPATCH", [js "FAILED"]⟩,
    ⟨js "calendar.appointment.accepted", js "ACCEPTANCE", [js "SUCCEEDED"]⟩,
    ⟨js "calendar.appointment.rejected", js "ACCEPTANCE", [js "FAILED"]⟩,
    ⟨js "calendar.appointment.created", js "EFFECT", [js "SUCCEEDED"]⟩,
    ⟨js "calendar.appointment.creation_failed", js "EFFECT", [js "FAILED"]⟩,
    ⟨js "calendar.appointment.confirmation_pending", js "SETTLEMENT", [js "PENDING"]⟩,
    ⟨js "calendar.appointment.confirmed", js "SETTLEMENT", [js "SUCCEEDED"]⟩,
    ⟨js "calendar.appointment.cancelled", js "TERMINATION", [js "CANCELLED"]⟩,
    ⟨js "calendar.appointment.expired", js "TERMINATION", [js "EXPIRED"]⟩,
    ⟨js "calendar.appointment.rescheduled", js "EFFECT", [js "SUCCEEDED"]⟩]

/-- `table[key]` of a registry table. -/
def lookup {α : Type} (table : List (JsString × α)) (key : JsString) : Option α :=
  (table.find? fun entry ↦ entry.1 = key).map Prod.snd

/-- `EVENT_TYPE_RULES[eventType]`. -/
def ruleOf (eventType : JsString) : Option EventTypeRule :=
  eventTypeRules.find? fun rule ↦ rule.eventType = eventType

/-- No event type has two rules. -/
theorem nodup_eventTypes : (eventTypeRules.map EventTypeRule.eventType).Nodup := by
  decide +kernel

/-- Every rule is found under its event type. -/
theorem ruleOf_of_mem {rule : EventTypeRule} (h : rule ∈ eventTypeRules) :
    ruleOf rule.eventType = some rule := by
  have hnodup := nodup_eventTypes
  rw [← List.filterMap_eq_map] at hnodup
  refine find?_eq_some_of_isOnly ((isOnly_of_nodup hnodup h rfl).congr fun other _ ↦ ?_)
  simp [Function.comp]

/-- An issue of the vocabulary, before the verifier gives it a path. -/
structure VocabularyIssue where
  code : ErrorCode
  message : JsString
  member : Option JsString

/-- `startsWithReservedNamespace`, `vocabulary.mjs:13–15`: only strings have `startsWith`. -/
def startsWithReservedNamespace : Option Json → Except Thrown Bool
  | some (.str s) => .ok (reservedEventNamespaces.any fun namespace_ ↦
      s = namespace_ || (namespace_ ++ js ".").isPrefixOf s)
  | _ => .error .notAFunction

/-- The phase and source rules of `validateEventVocabulary`, `vocabulary.mjs:18–36`; both values
are strings of their vocabularies when it is called. -/
def phaseIssues (phase status sourceClass : JsString) : List VocabularyIssue :=
  (match lookup phaseStatuses phase with
    | some allowed =>
      if status ∈ allowed then []
      else [⟨.eventPhaseStatusInvalid,
        status ++ js " is not permitted for lifecycle phase " ++ phase ++ js ".",
        some (js "status")⟩]
    | none => []) ++
  (match lookup sourcePhaseRules sourceClass with
    | some allowed =>
      if phase ∈ allowed then []
      else [⟨.eventSourcePhaseInvalid,
        sourceClass ++ js " is not meaningful for lifecycle phase " ++ phase ++ js ".",
        some (js "source_class")⟩]
    | none => [])

/-- The rule of a registered event type, `vocabulary.mjs:38–55`. -/
def ruleIssues (rule : EventTypeRule) (eventType phase status : JsString) :
    List VocabularyIssue :=
  (if phase = rule.phase then []
    else [⟨.eventTypePhaseMismatch, eventType ++ js " requires phase " ++ rule.phase ++ js ".",
      some (js "phase")⟩]) ++
  (if status ∈ rule.allowedStatuses then []
    else [⟨.eventTypeStatusMismatch,
      eventType ++ js " does not permit status " ++ status ++ js ".", some (js "status")⟩])

/-- `validateEventVocabulary`, `vocabulary.mjs:17–73`. The event type may be a value that only
reads as a type when coerced to a string; `typeText` is that string. -/
def validateEventVocabulary (eventType : Option Json)
    (typeText phase status sourceClass : JsString) :
    Except Thrown (List VocabularyIssue) :=
  let found := phaseIssues phase status sourceClass
  match ruleOf typeText with
  | some rule => .ok (found ++ ruleIssues rule typeText phase status)
  | none =>
    match startsWithReservedNamespace eventType with
    | .error thrown => .error thrown
    | .ok true => .ok (found ++ [⟨.eventTypeReservedUnregistered,
        typeText ++ js " uses a reserved namespace but is not registered.",
        some (js "event_type")⟩])
    | .ok false =>
      if extensionEventTypePattern.test typeText then .ok found
      else .ok (found ++ [⟨.eventTypeUnregistered,
        js "Unregistered event types must use the x.<reverse-dns>.<domain>.<resource>.<event> " ++
          js "extension form.", some (js "event_type")⟩])

/-- `ref.split(':', 1)[0]` of a string, and the empty string otherwise. -/
def refKind : Option Json → JsString
  | some (.str s) => s.takeWhile (· ≠ 0x3A)
  | _ => []

/-- `validateRelationshipVocabulary`, `vocabulary.mjs:75–88`. -/
def validateRelationshipVocabulary (relationshipType : JsString) (fromRef toRef : Option Json) :
    List VocabularyIssue :=
  match lookup relationshipSemantics relationshipType with
  | none => []
  | some semantic =>
    let orUnknown (kind : JsString) := if kind = [] then js "unknown" else kind
    if refKind fromRef ∈ semantic.allowedFrom ∧ refKind toRef ∈ semantic.allowedTo then []
    else [⟨.relationshipEndpointTypesInvalid,
      relationshipType ++ js " does not permit " ++ orUnknown (refKind fromRef) ++ js " -> " ++
        orUnknown (refKind toRef) ++ js " endpoints.", none⟩]

end TimeProofs.Core
