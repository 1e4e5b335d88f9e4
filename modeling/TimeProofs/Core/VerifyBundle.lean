import TimeProofs.Core.Checks

/-!
# The bundle verifier

`verifyBundle` of `packages/core/src/verify-bundle.mjs`: reading the input, the stages with an
early return, the stages over the content, and the result.
-/

namespace TimeProofs.Core

open TimeProofs.Base TimeProofs.Json

/-- The structural status of a bundle. -/
inductive Status where
  | valid
  | incomplete
  | invalid
deriving DecidableEq

/-- An entry of `valid_proofs`. -/
structure ValidProof where
  proofId : Option Json
  issuerRef : Option Json
  target : Option Json

/-- The member counts of an accepted bundle. -/
structure Summary where
  issuers : Nat
  events : Nat
  evidence : Nat
  relationships : Nat
  proofs : Nat

/-- What `verifyBundle` returns; the early returns have no payload digest but empty `checks`. -/
structure Verification where
  status : Status
  errors : List Issue
  warnings : List Issue
  checks : Option (List Json)
  payloadDigest : Option Json
  validProofs : List ValidProof
  summary : Option Summary

/-- The early return with the given errors. -/
def rejected (errors : List Issue) : Verification :=
  { status := .invalid, errors, warnings := [], checks := some [], payloadDigest := none,
    validProofs := [], summary := none }

/-- The issue of a text that does not parse, `verify-bundle.mjs:353–355`. -/
def parseIssue : ParseError → Issue
  | .strictJson error =>
    ⟨error.code, error.message, js "$", some (.obj [(js "position", natNumber error.position)])⟩
  | .typeError message => ⟨.jsonParseError, message, js "$", none⟩
  | .fuel => ⟨.jsonParseError, [], js "$", none⟩

/-- The bundle of the input and the run it is verified in: a text is parsed into objects without
prototypes. -/
def readBundle (rt : Runtime) : Json → Except Issue (Runtime × Json)
  | .str text =>
    match parseJsonStrict text with
    | .error error => .error (parseIssue error)
    | .ok bundle => .ok (rt.withoutPrototypes, bundle)
  | bundle => .ok (rt, bundle)

/-- The envelope, `verify-bundle.mjs:358–365`. -/
def verifyEnvelope (bundle : Json) : BundleCheck :=
  match bundle with
  | .obj members => Check.all [
      flag (!exactKeys (some bundle) topLevelKeys) .topLevelMembersInvalid
        "Top-level members must be exactly payload and proofs." (js "$"),
      requireObject members "payload" .payloadNotObject "payload must be an object." (js "$"),
      flag (!isArray (member members (js "proofs"))) .proofsNotArray "proofs must be an array."
        (js "$.proofs")]
  | _ => flag true .bundleNotObject "Bundle must be a JSON object." (js "$")

/-- The members of a payload that must be arrays, `verify-bundle.mjs:374`. -/
def payloadArrays : List String :=
  ["issuers", "events", "evidence", "relationships", "predecessor_bundle_digests"]

/-- The payload's own members, `verify-bundle.mjs:367–378`. -/
def verifyPayload (payload : Members) : BundleCheck :=
  let path := js "$.payload"
  Check.all [
    flag (!exactKeys (some (.obj payload)) payloadKeys) .payloadMembersInvalid
      "Payload members do not match TP-JSON-0.1." path,
    flag (!isText (member payload (js "spec_version")) (js "0.1")) .specVersionUnsupported
      "spec_version must equal 0.1." (child path "spec_version"),
    flag (!isText (member payload (js "profile")) (js "TP-JSON-0.1")) .profileUnsupported
      "profile must equal TP-JSON-0.1." (child path "profile"),
    requireText payload "bundle_id" .bundleIdInvalid "bundle_id must be non-empty." path,
    requireText payload "action_id" .actionIdInvalid "action_id must be non-empty." path,
    flag (!validUtcTimestamp (member payload (js "created_at"))) .createdAtInvalid
      "created_at must be a UTC timestamp." (child path "created_at"),
    Check.all (payloadArrays.map fun name ↦
      flag (!isArray (member payload (js name))) .payloadArrayInvalid
        (name ++ " must be an array.") (child path name)),
    requireObject payload "extensions" .payloadExtensionsInvalid "extensions must be an object."
      path]

/-! ### Content -/

/-- The arrays of a bundle whose envelope and payload passed. -/
structure Sections where
  issuers : List Json
  events : List Json
  evidence : List Json
  relationships : List Json
  predecessors : List Json
  proofs : List Json

/-- The sections of a bundle. -/
def sectionsOf (bundle : Members) : Sections :=
  let payload := membersOf (member bundle (js "payload"))
  { issuers := itemsOf (member payload (js "issuers"))
    events := itemsOf (member payload (js "events"))
    evidence := itemsOf (member payload (js "evidence"))
    relationships := itemsOf (member payload (js "relationships"))
    predecessors := itemsOf (member payload (js "predecessor_bundle_digests"))
    proofs := itemsOf (member bundle (js "proofs")) }

/-- The id of an object, when it is a string. -/
def stringId (idField : JsString) (item : Json) : Option JsString :=
  match get (some item) idField with
  | some (.str id) => some id
  | _ => none

/-- The string ids of a list of objects, `issuerIds` and `evidenceIds`. -/
def idsOf (idField : JsString) (items : List Json) : List JsString :=
  items.filterMap (stringId idField)

/-- `issuerIds`, `verify-bundle.mjs:380–388`. -/
def Sections.issuerIds (s : Sections) : List JsString := idsOf (js "issuer_id") s.issuers

/-- `payload.issuers.forEach`, `verify-bundle.mjs:380–388`. -/
def verifyIssuers (rt : Runtime) (issuers : List Json) : BundleCheck :=
  Check.visit
    (fun seen _ issuer ↦ seen ++ idsOf (js "issuer_id") [issuer])
    (fun seen index issuer ↦
      let path := elementPath (js "$.payload.issuers") index
      Check.both (verifyIssuer rt issuer path)
        (flag (isOneOf seen (get (some issuer) (js "issuer_id"))) .duplicateIssuerId
          "issuer_id must be unique." (child path "issuer_id")))
    [] 0 issuers

/-- The registered ids with the path of their first use. -/
abbrev Registry := List (JsString × JsString)

/-- The registration of an id, `verify-bundle.mjs:391–395`. -/
def registerId (registry : Registry) (id : Option Json) (path : JsString) : Registry :=
  match id with
  | some (.str id) => if (lookup registry id).isSome then registry else registry ++ [(id, path)]
  | _ => registry

/-- The issue of an id that is already registered, `verify-bundle.mjs:393`. -/
def duplicateIdCheck (registry : Registry) (id : Option Json) (path : JsString) : BundleCheck :=
  match id with
  | some (.str id) =>
    match lookup registry id with
    | some first =>
      .ok [⟨.duplicateObjectId, js "Identifier duplicates " ++ first ++ js ".", path, none⟩]
    | none => .ok []
  | _ => .ok []

/-- A collection of objects with an id each. -/
structure Collection where
  name : String
  idField : String

def eventCollection : Collection := ⟨"events", "event_id"⟩
def evidenceCollection : Collection := ⟨"evidence", "evidence_id"⟩
def relationshipCollection : Collection := ⟨"relationships", "relationship_id"⟩

/-- The path of an object in a collection. -/
def Collection.path (c : Collection) (index : Nat) : JsString :=
  elementPath (child (js "$.payload") c.name) index

/-- The id of an object in a collection. -/
def Collection.idOf (c : Collection) (item : Json) : Option Json :=
  get (some item) (js c.idField)

/-- The ids that a collection registers after those in the registry. -/
def Collection.register (c : Collection) (registry : Registry) (index : Nat) (item : Json) :
    Registry :=
  registerId registry (c.idOf item) (child (c.path index) c.idField)

/-- The loops over events, evidence and relationships, `verify-bundle.mjs:397–411`. -/
def Collection.verify (c : Collection) (check : Json → JsString → BundleCheck)
    (registry : Registry) (items : List Json) : BundleCheck :=
  Check.visit c.register
    (fun registry index item ↦ Check.both (check item (c.path index))
      (duplicateIdCheck registry (c.idOf item) (child (c.path index) c.idField)))
    registry 0 items

/-- The registry after a collection. -/
def Collection.registered (c : Collection) (registry : Registry) (items : List Json) : Registry :=
  Check.visited c.register registry 0 items

/-- The three collections with one registry of ids. -/
def verifyObjects (rt : Runtime) (s : Sections) : BundleCheck :=
  let afterEvents := eventCollection.registered [] s.events
  let afterEvidence := evidenceCollection.registered afterEvents s.evidence
  Check.all [
    eventCollection.verify (verifyEvent rt s.issuerIds) [] s.events,
    evidenceCollection.verify (verifyEvidence rt s.issuerIds) afterEvents s.evidence,
    relationshipCollection.verify (verifyRelationship rt) afterEvidence s.relationships]

/-- `eventDigests`, `verify-bundle.mjs:413`. -/
def eventDigests (events : List Json) : List (Option Json) :=
  (events.map fun event ↦ get (get (some event) (js "object_digest")) (js "value")).filter truthy

/-- A parent digest of an event, `verify-bundle.mjs:416–420`. -/
def verifyParent (digests : List (Option Json)) (event : Json) (path : JsString)
    (parent : Json) : BundleCheck :=
  let value := get (some parent) (js "value")
  if !validDigest (some parent) then
    flag true .parentDigestInvalid "Parent event digest is malformed." path
  else if !digests.any (sameValueZero value) then
    flag true .parentEventNotFound "Parent event digest does not resolve." path
  else
    flag (strictEqual value (get (get (some event) (js "object_digest")) (js "value")))
      .eventSelfParent "Event cannot be its own causal parent." path

/-- The references of an event, `verify-bundle.mjs:415–424`. -/
def verifyEventReferences (s : Sections) (index : Nat) (event : Json) : BundleCheck :=
  let path := eventCollection.path index
  let evidenceIds := idsOf (js "evidence_id") s.evidence
  match iterate (get (some event) (js "parent_event_digests")) with
  | .error thrown => .error thrown
  | .ok parents =>
    match iterate (get (some event) (js "evidence_refs")) with
    | .error thrown => .error thrown
    | .ok refs => Check.both
        (Check.all (parents.map
          (verifyParent (eventDigests s.events) event (child path "parent_event_digests"))))
        (Check.all (refs.map fun ref ↦ flag (!isOneOf evidenceIds (some ref))
          .eventEvidenceNotFound "evidence_ref does not resolve." (child path "evidence_refs")))

/-- `${kind}:${id}` of the objects of one kind. -/
def typedRefs (rt : Runtime) (kind idField : String) (items : List Json) :
    List (Except Thrown JsString) :=
  items.map fun item ↦
    (textOf rt (get (some item) (js idField))).map fun id ↦ js kind ++ js ":" ++ id

/-- `resolvableRefs`, `verify-bundle.mjs:426–430`. -/
def resolvableRefs (rt : Runtime) (s : Sections) : Except Thrown (List JsString) :=
  collect (typedRefs rt "event" "event_id" s.events ++
    typedRefs rt "evidence" "evidence_id" s.evidence ++
    typedRefs rt "issuer" "issuer_id" s.issuers)

/-- The endpoints of a relationship, `verify-bundle.mjs:431–434`. -/
def verifyEndpoints (refs : List JsString) (index : Nat) (relationship : Json) : BundleCheck :=
  let path := relationshipCollection.path index
  Check.both
    (flag (!isOneOf refs (get (some relationship) (js "from_ref"))) .relationshipFromNotFound
      "from_ref does not resolve." (child path "from_ref"))
    (flag (!isOneOf refs (get (some relationship) (js "to_ref"))) .relationshipToNotFound
      "to_ref does not resolve." (child path "to_ref"))

/-- The reference stage, `verify-bundle.mjs:413–434`. -/
def verifyReferences (rt : Runtime) (s : Sections) : BundleCheck :=
  Check.both (Check.each (verifyEventReferences s) s.events)
    (match resolvableRefs rt s with
      | .error thrown => .error thrown
      | .ok refs => Check.each (verifyEndpoints refs) s.relationships)

/-- The predecessor digests, `verify-bundle.mjs:436–441`. -/
def verifyPredecessors (rt : Runtime) (predecessors : List Json) : BundleCheck :=
  let path := js "$.payload.predecessor_bundle_digests"
  Check.both
    (Check.each (fun index digest ↦ flag (!validDigest (some digest)) .predecessorDigestInvalid
      "Predecessor digest is malformed." (elementPath path index)) predecessors)
    (repeatedTexts (predecessors.map (digestKey rt)) .duplicatePredecessorDigest
      "Predecessor digests must be unique." path)

/-! ### Proofs -/

/-- The first issuer whose id is the proof's `issuer_ref`, `verify-bundle.mjs:451`. -/
def issuerOf (issuers : List Json) (proof : Members) : Option Json :=
  issuers.find? fun candidate ↦
    strictEqual (get (some candidate) (js "issuer_id")) (member proof (js "issuer_ref"))

/-- The verification of one proof that is an object. -/
def proofResult (rt : Runtime) (bundle : Members) (issuers : List Json) (proof : Members) :
    Except Thrown SignatureCheck :=
  verifySignatureProof rt bundle proof (issuerOf issuers proof)

/-- The issue of a proof that does not verify, `verify-bundle.mjs:453`. -/
def verifyProofSignature (rt : Runtime) (bundle : Members) (issuers : List Json)
    (proof : Members) (path : JsString) : BundleCheck :=
  match proofResult rt bundle issuers proof with
  | .error thrown => .error thrown
  | .ok .valid => .ok []
  | .ok (.invalid code detail) =>
    .ok [⟨code, js "Cryptographic proof verification failed.", path, detail.map .str⟩]

/-- `bundle.proofs.forEach`, `verify-bundle.mjs:445–455`. -/
def verifyProofs (rt : Runtime) (bundle : Members) (s : Sections) : BundleCheck :=
  Check.visit
    (fun seen _ proof ↦
      match proof with
      | .obj members => seen ++ [member members (js "proof_id")]
      | _ => seen)
    (fun seen index proof ↦
      let path := elementPath (js "$.proofs") index
      match proof with
      | .obj members => Check.all [
          verifyProofShape s.issuerIds members path,
          flag (seen.any (sameValueZero (member members (js "proof_id")))) .duplicateProofId
            "proof_id must be unique." (child path "proof_id"),
          verifyProofSignature rt bundle s.issuers members path]
      | _ => flag true .proofNotObject "Proof must be an object." path)
    [] 0 s.proofs

/-- The proofs that verified, `verify-bundle.mjs:454`. -/
def validProofs (rt : Runtime) (bundle : Members) (s : Sections) : List ValidProof :=
  s.proofs.filterMap fun proof ↦
    match proof with
    | .obj members =>
      match proofResult rt bundle s.issuers members with
      | .ok .valid => some
          { proofId := member members (js "proof_id")
            issuerRef := member members (js "issuer_ref")
            target := member members (js "target") }
      | _ => none
    | _ => none

/-- The payload digest, or `null` with an issue, `verify-bundle.mjs:457–462`. -/
def payloadDigestCheck (rt : Runtime) (bundle : Members) : BundleCheck :=
  match calculatePayloadDigest rt bundle with
  | .error message => .ok [⟨.payloadDigestCalculationFailed, message, js "$.payload", none⟩]
  | .ok _ => .ok []

/-- All checks after the early returns. -/
def verifyContent (rt : Runtime) (bundle : Members) : BundleCheck :=
  let s := sectionsOf bundle
  Check.all [
    verifyIssuers rt s.issuers,
    verifyObjects rt s,
    verifyReferences rt s,
    verifyPredecessors rt s.predecessors,
    verifyProofs rt bundle s,
    payloadDigestCheck rt bundle]

/-! ### The result -/

/-- `incompleteReasons`, `verify-bundle.mjs:466–469`. -/
def incompleteReasons (s : Sections) : List ErrorCode :=
  (if s.events.isEmpty then [.noEvents] else []) ++
  (if s.evidence.isEmpty then [.noEvidence] else []) ++
  (if s.proofs.isEmpty then [.noProofs] else [])

/-- The result after all stages, `verify-bundle.mjs:464–485`. -/
def conclude (rt : Runtime) (bundle : Members) (errors : List Issue) : Verification :=
  let s := sectionsOf bundle
  let payloadDigest := (calculatePayloadDigest rt bundle).toOption.getD .null
  if errors.isEmpty then
    let reasons := incompleteReasons s
    { status := if reasons.isEmpty then .valid else .incomplete
      errors
      warnings := reasons.map fun reason ↦
        ⟨reason, js "Bundle is structurally sound but lacks evidence-bearing completeness.",
          js "$", none⟩
      checks := none
      payloadDigest := some payloadDigest
      validProofs := validProofs rt bundle s
      summary := some
        { issuers := s.issuers.length
          events := s.events.length
          evidence := s.evidence.length
          relationships := s.relationships.length
          proofs := s.proofs.length } }
  else
    { status := .invalid, errors, warnings := [], checks := none
      payloadDigest := some payloadDigest, validProofs := validProofs rt bundle s,
      summary := none }

/-- The stages on a value, `verify-bundle.mjs:358–485`. -/
def verifyValue (rt : Runtime) (bundle : Json) : Except Thrown Verification :=
  let members := membersOf (some bundle)
  match verifyEnvelope bundle with
  | .error thrown => .error thrown
  | .ok (issue :: more) => .ok (rejected (issue :: more))
  | .ok [] =>
    match verifyPayload (membersOf (member members (js "payload"))) with
    | .error thrown => .error thrown
    | .ok (issue :: more) => .ok (rejected (issue :: more))
    | .ok [] => (verifyContent rt members).map (conclude rt members)

/-- `verifyBundle`, `verify-bundle.mjs:346–486`. -/
def verifyBundle (rt : Runtime) (input : Json) : Except Thrown Verification :=
  match readBundle rt input with
  | .error issue => .ok (rejected [issue])
  | .ok (rt, bundle) => verifyValue rt bundle

end TimeProofs.Core
