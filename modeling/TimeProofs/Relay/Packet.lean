import TimeProofs.VerdictEngine.Refund

/-!
# The outcome packet

`packages/relay/src/packet.mjs`: the view of a bundle that the relay returns, with the evidence
that its verdict still misses.
-/

namespace TimeProofs.Relay

open TimeProofs.Base TimeProofs.Json TimeProofs.Core TimeProofs.VerdictEngine

/-- An entry of `lifecycle`. -/
structure LifecycleEntry where
  eventId : Option Json
  eventType : Option Json
  phase : Option Json
  status : Option Json
  occurredAt : Option Json
  sourceClass : Option Json
  issuerRef : Option Json
  signed : Bool

/-- What `buildOutcomePacket` returns, without its fixed texts. -/
structure OutcomePacket where
  generatedAt : JsString
  actionId : Option Json
  bundleId : Option Json
  payloadDigest : Option Json
  ruleset : JsString
  structuralStatus : Status
  verdict : Verdict
  reasons : List JsString
  decisiveEvents : List (Option Json)
  missingEvidence : List JsString
  issuerCount : Nat
  eventCount : Nat
  evidenceCount : Nat
  validProofCount : Nat
  lifecycle : List LifecycleEntry

/-- The time by which an event is placed in the lifecycle. -/
def lifecycleTime (rt : Runtime) (event : Json) : Except Thrown (Option Int × Json) :=
  match event with
  | .null => .error .memberOfNull
  | event => (dateParseOf rt (get (some event) (js "occurred_at"))).map fun time ↦ (time, event)

/-- The comparison of the lifecycle, `packet.mjs:3`: times that are equal or NaN leave the order
to the event ids, which are strings in a stored bundle. -/
def compareLifecycle (rt : Runtime) (left right : Option Int × Json) : Int :=
  let difference : Int :=
    match left.1, right.1 with
    | some x, some y => x - y
    | _, _ => 0
  if difference ≠ 0 then difference
  else rt.localeCompare (stringOf (get (some left.2) (js "event_id")))
    (stringOf (get (some right.2) (js "event_id")))

/-- `[...events].sort(…)`: a single event is not compared with anything. -/
def sortLifecycle (rt : Runtime) (events : List Json) : Except Thrown (List Json) :=
  if events.length ≤ 1 then .ok events
  else
    (collect (events.map (lifecycleTime rt))).map fun timed ↦
      (timed.insertionSort fun left right ↦ compareLifecycle rt left right ≤ 0).map Prod.snd

/-- The entry of an event, `packet.mjs:4–13`. -/
def lifecycleEntry (verification : Verification) (event : Json) : LifecycleEntry :=
  let own (name : String) := get (some event) (js name)
  { eventId := own "event_id"
    eventType := own "event_type"
    phase := own "phase"
    status := own "status"
    occurredAt := own "occurred_at"
    sourceClass := own "source_class"
    issuerRef := own "issuer_ref"
    signed := verification.validProofs.any fun proof ↦
      isText (get proof.target (js "target_type")) (js "OUTCOME_EVENT") &&
        strictEqual (get proof.target (js "target_id")) (own "event_id") }

/-- `missingEvidence`, `packet.mjs:15–18`. -/
def missingEvidence (verification : Verification) (evaluation : Evaluation) : List JsString :=
  (if evaluation.verdict = .pending then [js "A qualifying signed settlement event."] else []) ++
  (if evaluation.verdict = .unprovable then
    [js "Receiver, system-of-record, or independent settlement evidence."] else []) ++
  (if verification.status = .incomplete then
    [js "One or more structural completeness elements."] else [])

/-- `buildOutcomePacket`, `packet.mjs:1–47`, at the given time. -/
def buildOutcomePacket (rt : Runtime) (bundle : Members) (verification : Verification)
    (evaluation : Evaluation) (generatedAt : JsString) : Except Thrown OutcomePacket :=
  let payload := member bundle (js "payload")
  let s := sectionsOf bundle
  (sortLifecycle rt s.events).map fun events ↦
    { generatedAt
      actionId := get payload (js "action_id")
      bundleId := get payload (js "bundle_id")
      payloadDigest := verification.payloadDigest
      ruleset := evaluation.ruleset
      structuralStatus := verification.status
      verdict := evaluation.verdict
      reasons := [evaluation.reason]
      decisiveEvents := evaluation.decisiveEvents.getD []
      missingEvidence := missingEvidence verification evaluation
      issuerCount := s.issuers.length
      eventCount := s.events.length
      evidenceCount := s.evidence.length
      validProofCount := verification.validProofs.length
      lifecycle := events.map (lifecycleEntry verification) }

end TimeProofs.Relay
