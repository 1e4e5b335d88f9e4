import TimeProofs.Base.Run
import TimeProofs.Core.Signed

/-!
# Integrity of accepted bundles

What a status other than INVALID says about the references, digests and proofs of a bundle.
-/

namespace TimeProofs.Core

open TimeProofs.Base TimeProofs.Json

/-- A reference names exactly one object of a list by its id. -/
def NamesOne (ref : Option Json) (idField : JsString) (items : List Json) : Prop :=
  ∃ id, ref = some (.str id) ∧
    ∃ item, IsOnly (fun candidate ↦ get (some candidate) idField = some (.str id)) items item

/-- An id among distinct ids names one object. -/
theorem namesOne_of_isOneOf {ref : Option Json} {idField : JsString} {items : List Json}
    (hids : (idsOf idField items).Nodup) (h : isOneOf (idsOf idField items) ref = true) :
    NamesOne ref idField items := by
  obtain ⟨id, hmem, rfl⟩ := isOneOf_iff.mp h
  obtain ⟨item, hitem, hid⟩ := mem_idsOf.mp hmem
  exact ⟨id, rfl, item, (isOnly_of_nodup hids hitem (stringId_eq_some.mpr hid)).congr
    fun y _ ↦ stringId_eq_some⟩

/-- An object that a typed reference may name. -/
structure TypedObject where
  kind : JsString
  idField : JsString
  object : Json

/-- The typed reference of an object. -/
def TypedObject.ref (o : TypedObject) : Option JsString :=
  (stringId o.idField o.object).map (o.kind ++ js ":" ++ ·)

/-- The objects of a bundle that typed references may name. -/
def Sections.typedObjects (s : Sections) : List TypedObject :=
  s.events.map (⟨js "event", js "event_id", ·⟩) ++
    s.evidence.map (⟨js "evidence", js "evidence_id", ·⟩) ++
    s.issuers.map (⟨js "issuer", js "issuer_id", ·⟩)

/-- A typed reference names exactly one object of the bundle. -/
def EndpointNames (s : Sections) (ref : Option Json) (o : TypedObject) : Prop :=
  ∃ text, ref = some (.str text) ∧ IsOnly (fun o ↦ o.ref = some text) s.typedObjects o

theorem filterMap_ref (kind idField : JsString) (items : List Json) :
    (items.map (TypedObject.mk kind idField)).filterMap TypedObject.ref =
      (idsOf idField items).map (kind ++ js ":" ++ ·) := by
  rw [List.filterMap_map, idsOf, List.map_filterMap]
  rfl

theorem filterMap_typedObjects (s : Sections) :
    s.typedObjects.filterMap TypedObject.ref = s.refs := by
  simp only [Sections.typedObjects, Sections.refs, List.filterMap_append]
  exact congrArg₂ (· ++ ·) (congrArg₂ (· ++ ·) (filterMap_ref _ _ _) (filterMap_ref _ _ _))
    (filterMap_ref _ _ _)

/-- The kind of a typed reference is what stands before its first colon. -/
theorem refKind_ref {kind : JsString} (hkind : 0x3A ∉ kind) (id : JsString) :
    refKind (some (.str (kind ++ js ":" ++ id))) = kind := by
  have hcolon : js ":" = [0x3A] := by decide
  have hall : ∀ c ∈ kind, decide (c ≠ 0x3A) = true := fun c hc ↦ by
    simp only [decide_eq_true_eq]
    rintro rfl
    exact hkind hc
  rw [refKind, List.append_assoc, List.takeWhile_append_of_pos hall, hcolon]
  simp

/-- Typed references are distinct when the ids of each kind are. -/
theorem nodup_refs {s : Sections} (hevents : (idsOf (js "event_id") s.events).Nodup)
    (hevidence : (idsOf (js "evidence_id") s.evidence).Nodup)
    (hissuers : (idsOf (js "issuer_id") s.issuers).Nodup) : s.refs.Nodup := by
  have hinj (kind : JsString) : Function.Injective (kind ++ js ":" ++ · : JsString → JsString) :=
    fun _ _ h ↦ List.append_cancel_left h
  have hkinds {kind kind' id id' : JsString} (hk : 0x3A ∉ kind) (hk' : 0x3A ∉ kind')
      (h : kind ++ js ":" ++ id = kind' ++ js ":" ++ id') : kind = kind' := by
    rw [← refKind_ref hk id, h, refKind_ref hk' id']
  simp only [Sections.refs, List.nodup_append, List.mem_map, List.mem_append]
  refine ⟨⟨hevents.map (hinj _), hevidence.map (hinj _), ?_⟩, hissuers.map (hinj _), ?_⟩
  · rintro _ ⟨id, -, rfl⟩ _ ⟨id', -, rfl⟩ h
    exact absurd (hkinds (by decide) (by decide) h) (by decide)
  · rintro _ (⟨id, -, rfl⟩ | ⟨id, -, rfl⟩) _ ⟨id', -, rfl⟩ h
    · exact absurd (hkinds (by decide) (by decide) h) (by decide)
    · exact absurd (hkinds (by decide) (by decide) h) (by decide)

/-- The kind of an object is the kind in its reference. -/
theorem kind_of_typedObject {s : Sections} {o : TypedObject} (ho : o ∈ s.typedObjects)
    {text : JsString} (href : o.ref = some text) : refKind (some (.str text)) = o.kind := by
  have hcolon : 0x3A ∉ o.kind := by
    simp only [Sections.typedObjects, List.mem_append, List.mem_map] at ho
    rcases ho with (⟨item, -, rfl⟩ | ⟨item, -, rfl⟩) | ⟨item, -, rfl⟩
    · exact (by decide : 0x3A ∉ js "event")
    · exact (by decide : 0x3A ∉ js "evidence")
    · exact (by decide : 0x3A ∉ js "issuer")
  rw [TypedObject.ref, Option.map_eq_some_iff] at href
  obtain ⟨id, -, rfl⟩ := href
  exact refKind_ref hcolon id

/-- The endpoints of a relationship are two objects of kinds that its type permits. -/
def EndpointsPermitted (s : Sections) (relationship : Json) : Prop :=
  ∃ semantic fromObject toObject,
    lookup relationshipSemantics (stringOf (get (some relationship) (js "relationship_type"))) =
      some semantic ∧
    EndpointNames s (get (some relationship) (js "from_ref")) fromObject ∧
    EndpointNames s (get (some relationship) (js "to_ref")) toObject ∧
    get (some relationship) (js "from_ref") ≠ get (some relationship) (js "to_ref") ∧
    fromObject.kind ∈ semantic.allowedFrom ∧ toObject.kind ∈ semantic.allowedTo

private theorem lookup_semantics {relationshipType : JsString}
    (h : relationshipType ∈ relationshipTypes) :
    ∃ semantic, lookup relationshipSemantics relationshipType = some semantic := by
  rw [← Option.isSome_iff_exists, lookup_isSome_iff]
  exact h

/-- A permitted relationship whose endpoints resolve connects two objects of permitted kinds. -/
theorem endpointsPermitted {rt : Runtime} {s : Sections} {relationship : Json}
    (hrefs : s.refs.Nodup) (hok : RelationshipOk rt relationship)
    (hends : EndpointsOk s relationship) : EndpointsPermitted s relationship := by
  have hnames (name : String) (hname : name ∈ ["from_ref", "to_ref"]) :
      ∃ o, EndpointNames s (get (some relationship) (js name)) o ∧
        refKind (get (some relationship) (js name)) = o.kind := by
    obtain ⟨text, hmem, htext⟩ := isOneOf_iff.mp (hends name hname)
    rw [← filterMap_typedObjects] at hmem hrefs
    obtain ⟨o, ho, href⟩ := List.mem_filterMap.mp hmem
    exact ⟨o, ⟨text, htext, isOnly_of_nodup hrefs ho href⟩,
      htext ▸ kind_of_typedObject ho href⟩
  obtain ⟨fromObject, hfrom, hfromKind⟩ := hnames "from_ref" (by simp)
  obtain ⟨toObject, hto, htoKind⟩ := hnames "to_ref" (by simp)
  obtain ⟨relationshipType, htype, hget⟩ := isOneOf_iff.mp hok.relationshipType
  obtain ⟨semantic, hsemantic⟩ := lookup_semantics htype
  have hvocabulary := hok.vocabulary
  rw [hget] at hvocabulary
  rw [EndpointsPermitted, hget]
  simp only [validateRelationshipVocabulary, stringOf, hsemantic, ite_eq_left_iff] at hvocabulary
  refine ⟨semantic, fromObject, toObject, hsemantic, hfrom, hto, hok.distinct, ?_⟩
  rw [← hfromKind, ← htoKind]
  by_contra h
  cases hvocabulary h

/-! ### Integrity -/

/-- The entry of a proof in `valid_proofs`. -/
def validEntry (proof : Json) : ValidProof :=
  { proofId := get (some proof) (js "proof_id")
    issuerRef := get (some proof) (js "issuer_ref")
    target := get (some proof) (js "target") }

/-- A target names one object. -/
theorem Names.unique {bundle : Members} {target : Option Json} {o o' c c' : Json}
    (h : Names bundle target o c) (h' : Names bundle target o' c') : o' = o ∧ c' = c := by
  cases h with
  | payload htype =>
    cases h' with
    | payload _ => exact ⟨rfl, rfl⟩
    | object htype' hcollection _ _ =>
      rw [htype] at htype'
      cases htype'
      simp [targetCollection_payload] at hcollection
  | object htype hcollection hid honly =>
    cases h' with
    | payload htype' =>
      rw [htype] at htype'
      cases htype'
      simp [targetCollection_payload] at hcollection
    | object htype' hcollection' hid' honly' =>
      rw [htype] at htype'
      cases htype'
      rw [hcollection] at hcollection'
      cases hcollection'
      rw [hid] at hid'
      cases hid'
      cases honly.eq honly'.mem honly'.prop
      exact ⟨rfl, rfl⟩

/-- The referential integrity of a bundle and its list of verified proofs. -/
structure Integrity (rt : Runtime) (bundle : Members) (valid : List ValidProof) : Prop where
  issuerIds : ((sectionsOf bundle).issuers.map fun i ↦ get (some i) (js "issuer_id")).Nodup
  keyIds : ∀ issuer ∈ (sectionsOf bundle).issuers,
    ((itemsOf (get (some issuer) (js "keys"))).map fun k ↦ get (some k) (js "key_id")).Nodup
  objectIds : ((sectionsOf bundle).events.map (fun e ↦ get (some e) (js "event_id")) ++
    ((sectionsOf bundle).evidence.map (fun e ↦ get (some e) (js "evidence_id")) ++
      (sectionsOf bundle).relationships.map fun r ↦ get (some r) (js "relationship_id"))).Nodup
  issuerRefs : ∀ object ∈ (sectionsOf bundle).events ++ (sectionsOf bundle).evidence ++
      (sectionsOf bundle).proofs,
    NamesOne (get (some object) (js "issuer_ref")) (js "issuer_id") (sectionsOf bundle).issuers
  evidenceRefs : ∀ event ∈ (sectionsOf bundle).events,
    ∀ ref ∈ itemsOf (get (some event) (js "evidence_refs")),
      NamesOne (some ref) (js "evidence_id") (sectionsOf bundle).evidence
  parents : ∀ event ∈ (sectionsOf bundle).events,
    ∀ parent ∈ itemsOf (get (some event) (js "parent_event_digests")),
      ∃ cause ∈ (sectionsOf bundle).events, ∃ hex,
        contentHash rt (membersOf (some cause)) = .ok hex ∧ IsDigest (some parent) hex
  endpoints : ∀ relationship ∈ (sectionsOf bundle).relationships,
    EndpointsPermitted (sectionsOf bundle) relationship
  digests : ∀ object ∈ (sectionsOf bundle).events ++ (sectionsOf bundle).evidence ++
      (sectionsOf bundle).relationships,
    DigestMatches rt (membersOf (some object))
  proofs : ∀ proof ∈ (sectionsOf bundle).proofs, ∃ members object content,
    proof = .obj members ∧
    (∃ hex issuerId keyId issuer key,
      Signed rt bundle members object content hex issuerId keyId issuer key) ∧
    ∀ object' content', Names bundle (member members (js "target")) object' content' →
      object' = object ∧ content' = content
  validProofs : valid = (sectionsOf bundle).proofs.map validEntry
  proofIds : (valid.map ValidProof.proofId).Nodup

theorem nodup_map_get {idField : JsString} {items : List Json}
    (h : ∀ item ∈ items, isNonEmptyString (get (some item) idField) = true)
    (hids : (idsOf idField items).Nodup) :
    (items.map fun item ↦ get (some item) idField).Nodup := by
  rw [map_get_eq_idsOf h]
  exact hids.map fun _ _ h ↦ by simpa using h

/-- A parent digest is the recomputed digest of an event. -/
private theorem ContentOk.parent {rt : Runtime} {bundle : Members} (h : ContentOk rt bundle)
    {event parent : Json} (hevent : event ∈ (sectionsOf bundle).events)
    (hparent : parent ∈ itemsOf (get (some event) (js "parent_event_digests"))) :
    ∃ cause ∈ (sectionsOf bundle).events, ∃ hex,
      contentHash rt (membersOf (some cause)) = .ok hex ∧ IsDigest (some parent) hex := by
  obtain ⟨hvalid, ⟨cause, hcause, hvalue⟩, -⟩ := (h.references event hevent).parents parent hparent
  obtain ⟨hex, hd, -⟩ := validDigest_iff.mp hvalid
  obtain ⟨hex', hhash, hdeclared⟩ := (h.events cause hcause).digest
  obtain ⟨ms, hms, -⟩ := exactKeys_iff.mp (h.events cause hcause).keys
  obtain rfl := Option.some.inj hms
  have : hex = hex' := by
    have hv := hdeclared.value
    rw [hd.value] at hvalue
    have := hvalue.trans hv
    simpa using this
  exact ⟨_, hcause, hex', hhash, this ▸ hd⟩

/-- Every proof of an accepted bundle is listed as valid. -/
theorem Accepted.validProofs_eq {rt : Runtime} {bundle : Members} (h : Accepted rt bundle) :
    validProofs rt bundle (sectionsOf bundle) = (sectionsOf bundle).proofs.map validEntry := by
  rw [validProofs, ← List.filterMap_eq_map]
  refine List.filterMap_congr fun proof hproof ↦ ?_
  obtain ⟨members, rfl, -, hresult⟩ := h.proofs proof hproof
  simp [hresult, validEntry, get]

/-- An accepted bundle has referential integrity. -/
theorem Accepted.integrity {rt : Runtime} {bundle : Members} (h : Accepted rt bundle) :
    Integrity rt bundle (validProofs rt bundle (sectionsOf bundle)) := by
  have hobjectIds := h.objectIds
  rw [Sections.objectIds, List.nodup_append, List.nodup_append] at hobjectIds
  have hproof : ∀ proof ∈ (sectionsOf bundle).proofs,
      ∃ members, proof = .obj members ∧ ProofOk (sectionsOf bundle).issuerIds members := by
    intro proof hproof
    obtain ⟨members, hmembers, hok, -⟩ := h.proofs proof hproof
    exact ⟨members, hmembers, hok⟩
  have heventIds : ∀ e ∈ (sectionsOf bundle).events,
      isNonEmptyString (get (some e) (js "event_id")) = true :=
    fun e he ↦ (h.events e he).texts "event_id" (by decide)
  have hevidenceIds : ∀ e ∈ (sectionsOf bundle).evidence,
      isNonEmptyString (get (some e) (js "evidence_id")) = true :=
    fun e he ↦ (h.evidence e he).texts "evidence_id" (by decide)
  have hrelationshipIds : ∀ r ∈ (sectionsOf bundle).relationships,
      isNonEmptyString (get (some r) (js "relationship_id")) = true :=
    fun r hr ↦ (h.relationships r hr).texts "relationship_id" (by decide)
  constructor
  case issuerIds => exact nodup_map_get (fun i hi ↦ (h.issuers i hi).issuerId) h.issuerIds
  case keyIds =>
    intro issuer hissuer
    obtain ⟨keys, hkeys, hok, hids⟩ := (h.issuers issuer hissuer).keyList
    rw [hkeys]
    exact nodup_map_get (fun k hk ↦ (hok k hk).keyId) hids
  case objectIds =>
    rw [map_get_eq_idsOf heventIds, map_get_eq_idsOf hevidenceIds,
      map_get_eq_idsOf hrelationshipIds, ← List.map_append, ← List.map_append]
    exact h.objectIds.map fun _ _ h ↦ by simpa using h
  case issuerRefs =>
    intro object hobject
    refine namesOne_of_isOneOf h.issuerIds ?_
    rw [List.mem_append, List.mem_append] at hobject
    rcases hobject with (hobject | hobject) | hobject
    · exact (h.events object hobject).issuerRef
    · exact (h.evidence object hobject).issuerRef
    · obtain ⟨members, rfl, hok⟩ := hproof object hobject
      exact hok.issuerRef
  case evidenceRefs =>
    intro event hevent ref href
    exact namesOne_of_isOneOf hobjectIds.2.1.1 ((h.references event hevent).evidence ref href)
  case parents => exact fun event hevent parent hparent ↦ h.parent hevent hparent
  case endpoints =>
    exact fun relationship hr ↦ endpointsPermitted
      (nodup_refs hobjectIds.1 hobjectIds.2.1.1 h.issuerIds) (h.relationships relationship hr)
      (h.endpoints relationship hr)
  case digests =>
    intro object hobject
    rw [List.mem_append, List.mem_append] at hobject
    rcases hobject with (hobject | hobject) | hobject
    · exact (h.events object hobject).digest
    · exact (h.evidence object hobject).digest
    · exact (h.relationships object hobject).digest
  case proofs =>
    intro proof hmem
    obtain ⟨members, rfl, hok, hresult⟩ := h.proofs proof hmem
    obtain ⟨object, content, hex, issuerId, keyId, issuer, key, hs⟩ :=
      (proofResult_iff h.toContentOk hok).mp hresult
    exact ⟨members, object, content, rfl, ⟨hex, issuerId, keyId, issuer, key, hs⟩,
      fun _ _ hnames ↦ hs.names.unique hnames⟩
  case validProofs => exact h.validProofs_eq
  case proofIds =>
    rw [h.validProofs_eq, List.map_map]
    refine nodup_map_get (fun proof hmem ↦ ?_) h.proofIds
    obtain ⟨members, rfl, hok⟩ := hproof proof hmem
    exact hok.proofId

/-- A status of VALID or INCOMPLETE implies referential integrity. -/
theorem verifyBundle_integrity {rt : Runtime} {input : Json} {result : Verification}
    (h : verifyBundle rt input = .ok result)
    (hs : result.status = .valid ∨ result.status = .incomplete) :
    ∃ rt' bundle, readBundle rt input = .ok (rt', .obj bundle) ∧
      Integrity rt' bundle result.validProofs := by
  have hne : result.status ≠ .invalid := by
    rcases hs with hs | hs <;> rw [hs] <;> nofun
  obtain ⟨rt', bundle, hread, hok, rfl⟩ := verifyBundle_accepts.mp ⟨h, hne⟩
  exact ⟨rt', bundle, hread, hok.integrity⟩

/-! ### A bundle of one settled refund -/

/-- The bytes of a hexadecimal text. -/
def hexBytes : JsString → List UInt8
  | high :: low :: rest =>
    UInt8.ofNat (hexValue high * 16 + hexValue low) :: hexBytes rest
  | _ => []
where
  hexValue (c : CodeUnit) : Nat :=
    if isDigit c then c.toNat - 0x30 else c.toNat - 0x57

/-- The digest with a hexadecimal value of 64 digits. -/
def digestOf (hex : String) : Sha256Digest :=
  if h : (hexBytes (js hex)).length = 32 then ⟨_, h⟩ else ⟨List.replicate 32 0, by simp⟩

def sampleEventHash : String := "b02e4ed8601bcd954ceda50224e29a7179c86fc8de19977df020021b0cc1de34"

def sampleAcceptedHash : String :=
  "5d4c0c3e1887c9009be0c8825a8c6827286fbf7511ba5c195c77cf80be18f020"

def sampleEvidenceHash : String :=
  "05ecf46902b2bf7556bb23117dce5ebbaf98035aaba0b9fe486994e61ed1f0f4"

def sampleRelationshipHash : String :=
  "4b494cef7639f4bc07be95303151b7e5502d61cd2b59c28749406c60055bfe76"

/-- SHA-256 of the sample texts, which differ in length. -/
def sampleHashes : List (Nat × String) :=
  [(408, sampleEventHash), (405, sampleAcceptedHash), (417, sampleEvidenceHash),
    (116, sampleRelationshipHash),
    (1855, "094144699f39d9098185b873598fcc7f6569bb133325a6e8f366503db72f1450"),
    (1089, "49e144a350e5dc58c958cd636b10ec2a0052201716f554556ff2633a77b0c1c2")]

def samplePem : JsString :=
  js "-----BEGIN PUBLIC KEY-----\n" ++
    js "MCowBQYDK2VwAyEAAf/4lAMUi1VhCGaKm4Yo5F+41keRO105VEFXoDg7c4c=\n" ++
    js "-----END PUBLIC KEY-----\n"

/-- The Ed25519 signature of the sample key over the 232 bytes of the sample signing input. -/
def sampleSignature : JsString :=
  js "evGZIvK5-pBHgnNSWFmLdtf5Aqn5rGaCLWL-hknmL6ayhGYMVme2KvWEVzvYBrbN6eG9RzUuK2SDPUqxzWa-AQ"

/-- A host on the sample texts. -/
def sampleRuntime : Runtime where
  numberToString _ := js "0"
  coerceObject _ := some (js "[object Object]")
  sha256 bytes :=
    digestOf ((sampleHashes.find? fun entry ↦ entry.1 = bytes.length).elim "" Prod.snd)
  createPublicKey key :=
    if isText key samplePem then .ok ⟨js "ed25519", []⟩ else .error (js "invalid key")
  createPrivateKey _ := .error (js "invalid key")
  sign _ _ := []
  verify input _ signature :=
    .ok (input.length = 232 && decide (encode64 signature = sampleSignature))
  urlProtocol _ := none
  parseOtherDate _ := none
  localeCompare := compareUtf16

def jsonText (s : String) : Json := .str (js s)

def sampleEntity (entityType entityId : String) : Json :=
  .obj [(js "entity_type", jsonText entityType), (js "entity_id", jsonText entityId)]

def sampleEvent (id phase eventType sourceClass : String) (refs : List Json) (hash : String) :
    Json :=
  .obj [(js "event_id", jsonText id), (js "phase", jsonText phase),
    (js "event_type", jsonText eventType), (js "status", jsonText "SUCCEEDED"),
    (js "occurred_at", jsonText "2026-07-01T10:00:00Z"),
    (js "recorded_at", jsonText "2026-07-01T10:00:05Z"), (js "source_class", jsonText sourceClass),
    (js "issuer_ref", jsonText "psp"), (js "actor", sampleEntity "provider" "psp"),
    (js "subject", sampleEntity "refund" "re_1"), (js "claim", .obj []),
    (js "evidence_refs", .arr refs), (js "parent_event_digests", .arr []),
    (js "extensions", .obj []), (js "object_digest", digestObject (js hash))]

def sampleEvidence : Json :=
  .obj [(js "evidence_id", jsonText "v1"), (js "evidence_type", jsonText "PSP_RECORD"),
    (js "media_type", jsonText "application/json"),
    (js "source_class", jsonText "SYSTEM_OF_RECORD"), (js "issuer_ref", jsonText "psp"),
    (js "claim_scope", .arr [jsonText "commerce.refund.settled"]),
    (js "content_digest", digestObject
      (js "44136fa355b3678a1146ad16f7e8649e94fb4fc21fe77e8310c060f61caaff8a")),
    (js "locator", .obj [(js "scheme", jsonText "opaque"), (js "value", jsonText "ledger-1"),
      (js "retrieval_policy", jsonText "AUTHORIZED_ONLY")]),
    (js "disclosure", jsonText "PRIVATE"), (js "extensions", .obj []),
    (js "object_digest", digestObject (js sampleEvidenceHash))]

def sampleRelationship : Json :=
  .obj [(js "relationship_id", jsonText "r1"), (js "relationship_type", jsonText "SUPPORTS"),
    (js "from_ref", jsonText "evidence:v1"), (js "to_ref", jsonText "event:e1"),
    (js "extensions", .obj []), (js "object_digest", digestObject (js sampleRelationshipHash))]

def sampleIssuer : Json :=
  .obj [(js "issuer_id", jsonText "psp"), (js "display_name", jsonText "Provider"),
    (js "issuer_type", jsonText "PAYMENT_PROVIDER"),
    (js "identifiers", .arr [.obj [(js "scheme", jsonText "account"),
      (js "value", jsonText "acct_1")]]),
    (js "keys", .arr [.obj [(js "key_id", jsonText "k1"), (js "algorithm", jsonText "Ed25519"),
      (js "format", jsonText "spki-pem"), (js "public_key", .str samplePem)]]),
    (js "extensions", .obj [])]

def sampleProof : Json :=
  .obj [(js "proof_id", jsonText "p1"), (js "proof_type", jsonText "SIGNATURE"),
    (js "target", .obj [(js "target_type", jsonText "OUTCOME_EVENT"),
      (js "target_id", jsonText "e1"), (js "digest", digestObject (js sampleEventHash))]),
    (js "issuer_ref", jsonText "psp"), (js "verification_method", jsonText "psp#k1"),
    (js "created_at", jsonText "2026-07-01T10:00:06Z"), (js "algorithm", jsonText "Ed25519"),
    (js "proof_value", .str sampleSignature)]

def sampleBundle (events evidence relationships proofs : List Json) : Json :=
  .obj [(js "payload", .obj [(js "spec_version", jsonText "0.1"),
      (js "profile", jsonText "TP-JSON-0.1"), (js "bundle_id", jsonText "b1"),
      (js "action_id", jsonText "a1"),
      (js "created_at", jsonText "2026-07-01T10:00:06Z"), (js "issuers", .arr [sampleIssuer]),
      (js "events", .arr events), (js "evidence", .arr evidence),
      (js "relationships", .arr relationships), (js "predecessor_bundle_digests", .arr []),
      (js "extensions", .obj [])]),
    (js "proofs", .arr proofs)]

/-- A settled refund with its record, signed by the provider. -/
def settledBundle : Json :=
  sampleBundle
    [sampleEvent "e1" "SETTLEMENT" "commerce.refund.settled" "SYSTEM_OF_RECORD" [jsonText "v1"]
      sampleEventHash]
    [sampleEvidence] [sampleRelationship] [sampleProof]

theorem settledBundleValid :
    (verifyBundle sampleRuntime settledBundle).toOption.map Verification.status =
      some .valid := by
  decide +kernel

/-- A status that is computed belongs to a result. -/
theorem exists_of_status {rt : Runtime} {input : Json} {status : Status}
    (h : (verifyBundle rt input).toOption.map Verification.status = some status) :
    ∃ result, verifyBundle rt input = .ok result ∧ result.status = status := by
  cases hr : verifyBundle rt input with
  | error thrown => simp [hr, Except.toOption] at h
  | ok result => exact ⟨result, rfl, by simpa [hr, Except.toOption] using h⟩

theorem verifyBundle_integrity_settled :
    ∃ result, verifyBundle sampleRuntime settledBundle = .ok result ∧ result.status = .valid ∧
      ∃ rt bundle, readBundle sampleRuntime settledBundle = .ok (rt, .obj bundle) ∧
        Integrity rt bundle result.validProofs := by
  obtain ⟨result, hr, hs⟩ := exists_of_status settledBundleValid
  exact ⟨result, hr, hs, verifyBundle_integrity hr (.inl hs)⟩

end TimeProofs.Core
