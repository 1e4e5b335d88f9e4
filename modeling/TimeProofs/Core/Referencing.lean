import TimeProofs.Core.Extending

/-!
# Referencing objects

A typed reference is the kind of an object and its id with a colon between them. The reference
pattern reads an id up to the next colon or white space, so that not every id the verifier admits
can be referenced.
-/

namespace TimeProofs.Core

open TimeProofs.Base TimeProofs.Json

/-- `bundle.payload.relationships.push(relationship)`. -/
def withRelationship (bundle : Members) (relationship : Json) : Members :=
  setMember bundle (js "payload") (.obj (setMember (membersOf (member bundle (js "payload")))
    (js "relationships") (.arr ((sectionsOf bundle).relationships ++ [relationship]))))

/-- The objects that a reference can name. -/
inductive ObjectKind where
  | event
  | evidence
  | issuer
deriving DecidableEq

/-- The word of a kind in a reference. -/
def ObjectKind.word : ObjectKind → JsString
  | .event => js "event"
  | .evidence => js "evidence"
  | .issuer => js "issuer"

/-- The id member of a kind. -/
def ObjectKind.idField : ObjectKind → JsString
  | .event => js "event_id"
  | .evidence => js "evidence_id"
  | .issuer => js "issuer_id"

/-- The objects of a kind. -/
def ObjectKind.items (s : Sections) : ObjectKind → List Json
  | .event => s.events
  | .evidence => s.evidence
  | .issuer => s.issuers

/-- The reference `kind:id`. -/
def ObjectKind.ref (kind : ObjectKind) (id : JsString) : JsString := kind.word ++ js ":" ++ id

/-- A text that the reference pattern takes for an id. -/
def isRefText (id : JsString) : Bool := id.all isRefUnit

theorem ObjectKind.colon_not_mem (kind : ObjectKind) :
    ∀ c ∈ kind.word, decide (c ≠ 0x3A) = true := by
  apply List.all_eq_true.mp
  cases kind <;> rfl

/-- A reference is read up to its first colon. -/
theorem ObjectKind.takeWhile_ref (kind : ObjectKind) (id : JsString) :
    (kind.ref id).takeWhile (· ≠ 0x3A) = kind.word := by
  rw [ref, List.append_assoc, List.takeWhile_append_of_pos kind.colon_not_mem]
  exact List.append_nil _

theorem ObjectKind.word_injective : Function.Injective ObjectKind.word := by
  intro kind other h
  cases kind <;> cases other <;> first | rfl | exact absurd h (by decide)

/-- A reference determines its kind and its id. -/
theorem ObjectKind.ref_inj {kind other : ObjectKind} {id id' : JsString}
    (h : kind.ref id = other.ref id') : kind = other ∧ id = id' := by
  have hword : kind.word = other.word := by
    rw [← kind.takeWhile_ref id, ← other.takeWhile_ref id', h]
  obtain rfl := ObjectKind.word_injective hword
  exact ⟨rfl, List.append_cancel_left h⟩

/-- A reference has the pattern exactly when its id has neither a colon nor white space. -/
theorem ObjectKind.test_ref (kind : ObjectKind) {id : JsString} (hid : id ≠ []) :
    relationshipRefPattern.test (kind.ref id) = isRefText id := by
  have hwords {w : JsString} :
      (Regex.alt (.word (js "event")) (.alt (.word (js "evidence")) (.word (js "issuer")))).Matches
        w ↔ ∃ kind : ObjectKind, w = kind.word := by
    simp only [Regex.matches_alt_iff, Regex.matches_word_iff]
    constructor
    · rintro (rfl | rfl | rfl)
      · exact ⟨.event, rfl⟩
      · exact ⟨.evidence, rfl⟩
      · exact ⟨.issuer, rfl⟩
    · rintro ⟨kind, rfl⟩
      cases kind
      · exact .inl rfl
      · exact .inr (.inl rfl)
      · exact .inr (.inr rfl)
  rw [Bool.eq_iff_iff, Regex.test_iff, relationshipRefPattern, Regex.matches_seq_iff, isRefText,
    List.all_eq_true]
  constructor
  · rintro ⟨w, rest, hw, hrest, heq⟩
    obtain ⟨other, rfl⟩ := hwords.mp hw
    obtain ⟨colon, id', hcolon, hid', rfl⟩ := Regex.matches_seq_iff.mp hrest
    obtain rfl := Regex.matches_word_iff.mp hcolon
    have href : kind.ref id = other.ref id' := by
      rw [heq, ref, List.append_assoc]
    obtain ⟨-, rfl⟩ := ObjectKind.ref_inj href
    exact (Regex.matches_plus_chars_iff.mp hid').2
  · intro hunits
    refine ⟨kind.word, js ":" ++ id, hwords.mpr ⟨kind, rfl⟩, ?_, List.append_assoc _ _ _⟩
    exact .seq (Regex.matches_word_iff.mpr rfl) (Regex.matches_plus_chars_iff.mpr ⟨hid, hunits⟩)

/-- References correspond to each other whatever their kinds. -/
theorem ObjectKind.vocabulary_correspondsTo (source target : ObjectKind) (id id' : JsString) :
    validateRelationshipVocabulary (js "CORRESPONDS_TO") (some (.str (source.ref id)))
      (some (.str (target.ref id'))) = [] := by
  unfold validateRelationshipVocabulary
  simp only [refKind, takeWhile_ref]
  cases source <;> cases target <;> decide

/-- Evidence supports events. -/
theorem ObjectKind.vocabulary_supports (id id' : JsString) :
    validateRelationshipVocabulary (js "SUPPORTS") (some (.str (evidence.ref id)))
      (some (.str (event.ref id'))) = [] := by
  unfold validateRelationshipVocabulary
  simp only [refKind, takeWhile_ref]
  decide

section

variable {rt : Runtime} {bundle : Members} {relationship : Json}

/-- The other members of the payload stay. -/
theorem payload_withRelationship (bundle : Members) (relationship : Json) {name : JsString}
    (hname : name ≠ js "relationships") :
    member (membersOf (member (withRelationship bundle relationship) (js "payload"))) name =
      member (membersOf (member bundle (js "payload"))) name := by
  rw [withRelationship, member_setMember, if_pos rfl, membersOf, member_setMember,
    if_neg (Ne.symm hname)]

theorem relationships_withRelationship (bundle : Members) (relationship : Json) :
    member (membersOf (member (withRelationship bundle relationship) (js "payload")))
      (js "relationships") = some (.arr ((sectionsOf bundle).relationships ++ [relationship])) := by
  rw [withRelationship, member_setMember, if_pos rfl, membersOf, member_setMember, if_pos rfl]

theorem sectionsOf_withRelationship (bundle : Members) (relationship : Json) :
    sectionsOf (withRelationship bundle relationship) =
      { sectionsOf bundle with
        relationships := (sectionsOf bundle).relationships ++ [relationship] } := by
  have hproofs : member (withRelationship bundle relationship) (js "proofs") =
      member bundle (js "proofs") := by
    rw [withRelationship, member_setMember, if_neg (by decide)]
  unfold sectionsOf
  dsimp only
  rw [payload_withRelationship bundle relationship (by decide : js "issuers" ≠ _),
    payload_withRelationship bundle relationship (by decide : js "events" ≠ _),
    payload_withRelationship bundle relationship (by decide : js "evidence" ≠ _),
    payload_withRelationship bundle relationship
      (by decide : js "predecessor_bundle_digests" ≠ _),
    relationships_withRelationship, hproofs]
  rfl

theorem EnvelopeOk.withRelationship (h : EnvelopeOk (.obj bundle)) (relationship : Json) :
    EnvelopeOk (.obj (withRelationship bundle relationship)) where
  keys := by
    obtain ⟨ms, hms, hperm⟩ := exactKeys_iff.mp h.keys
    cases hms
    have hmem : js "payload" ∈ bundle.map Prod.fst := hperm.mem_iff.mpr (by decide)
    refine exactKeys_iff.mpr ⟨_, rfl, ?_⟩
    rwa [Core.withRelationship, map_fst_setMember hmem]
  payload := by
    rw [get, Core.withRelationship, member_setMember, if_pos rfl]
    rfl
  proofs := by
    rw [get, Core.withRelationship, member_setMember, if_neg (by decide)]
    exact h.proofs

theorem PayloadOk.withRelationship (h : PayloadOk (membersOf (member bundle (js "payload"))))
    (relationship : Json) :
    PayloadOk (membersOf (member (withRelationship bundle relationship) (js "payload"))) where
  keys := by
    obtain ⟨ms, hms, hperm⟩ := exactKeys_iff.mp h.keys
    cases hms
    have hmem : js "relationships" ∈ (membersOf (member bundle (js "payload"))).map Prod.fst :=
      hperm.mem_iff.mpr (by decide)
    refine exactKeys_iff.mpr ⟨_, rfl, ?_⟩
    rwa [Core.withRelationship, member_setMember, if_pos rfl, membersOf, map_fst_setMember hmem]
  specVersion := by
    rw [payload_withRelationship _ _ (by decide)]
    exact h.specVersion
  profile := by
    rw [payload_withRelationship _ _ (by decide)]
    exact h.profile
  bundleId := by
    rw [payload_withRelationship _ _ (by decide)]
    exact h.bundleId
  actionId := by
    rw [payload_withRelationship _ _ (by decide)]
    exact h.actionId
  createdAt := by
    rw [payload_withRelationship _ _ (by decide)]
    exact h.createdAt
  arrays := by
    intro name hname
    by_cases heq : js name = js "relationships"
    · rw [heq, relationships_withRelationship]
      rfl
    · rw [payload_withRelationship _ _ heq]
      exact h.arrays name hname
  extensions := by
    rw [payload_withRelationship _ _ (by decide)]
    exact h.extensions

theorem encodable_withRelationship (h : ContentOk rt bundle)
    (hrelationship : Encodable relationship) :
    ∃ digest, calculatePayloadDigest rt (withRelationship bundle relationship) = .ok digest := by
  rw [(h.envelope.withRelationship relationship).payloadDigest_iff, withRelationship,
    member_setMember, if_pos rfl]
  have hpayload := h.envelope.payloadDigest_iff.mp h.payloadDigest
  apply encodable_setMember hpayload (by decide)
  rw [encodable_arr, List.forall_mem_append]
  refine ⟨?_, List.forall_mem_singleton.mpr hrelationship⟩
  obtain ⟨items, hitems⟩ := isArray_iff.mp (h.payload.arrays "relationships" (by decide))
  have hrelationships : (sectionsOf bundle).relationships = items := by
    rw [sectionsOf, hitems, itemsOf]
  rw [hrelationships]
  exact (encodable_arr items).mp ((encodable_obj _).mp hpayload _ (mem_of_member_eq hitems)).2

/-- A bundle with a further relationship extends the bundle. -/
theorem extends_withRelationship (bundle : Members) (relationship : Json) :
    Extends bundle (withRelationship bundle relationship) [] [] [relationship] := by
  have hsections := sectionsOf_withRelationship bundle relationship
  constructor
  case issuers => rw [hsections]
  case events => rw [hsections, List.append_nil]
  case evidence => rw [hsections, List.append_nil]
  case relationships => rw [hsections]
  case specVersion => exact payload_withRelationship bundle relationship (by decide)
  case profile => exact payload_withRelationship bundle relationship (by decide)

theorem FrameOk.withRelationship (h : ContentOk rt bundle)
    (hrelationship : Encodable relationship) :
    FrameOk rt (withRelationship bundle relationship) where
  envelope := h.envelope.withRelationship relationship
  payload := h.payload.withRelationship relationship
  predecessors := by
    rw [sectionsOf_withRelationship]
    exact h.predecessors
  distinctPredecessors := by
    rw [sectionsOf_withRelationship]
    exact h.distinctPredecessors
  payloadDigest := encodable_withRelationship h hrelationship

/-- An accepted bundle without a proof of its payload stays accepted with a new relationship
exactly when that is one of the profile between objects of the bundle. -/
theorem accepted_withRelationship_iff (h : Accepted rt bundle)
    (hproofs : ∀ proof ∈ (sectionsOf bundle).proofs,
      NamesObject (get (some proof) (js "target")))
    (hrelationship : Encodable relationship) {id : JsString}
    (hid : get (some relationship) (js "relationship_id") = some (.str id))
    (hfresh : id ∉ (sectionsOf bundle).objectIds) :
    Accepted rt (withRelationship bundle relationship) ↔
      RelationshipOk rt relationship ∧ EndpointsOk (sectionsOf bundle) relationship := by
  have hextends := extends_withRelationship bundle relationship
  constructor
  · intro hok
    have hmem : relationship ∈
        (sectionsOf (withRelationship bundle relationship)).relationships := by
      rw [hextends.relationships]
      exact List.mem_append_right _ List.mem_cons_self
    have hendpoints := hok.endpoints relationship hmem
    unfold EndpointsOk at hendpoints ⊢
    rw [sectionsOf_withRelationship] at hendpoints
    exact ⟨hok.relationships relationship hmem, hendpoints⟩
  · rintro ⟨hok, hendpoints⟩
    have hids : appendedIds [] [] [relationship] = [id] := by
      rw [appendedIds, idsOf, idsOf, idsOf, List.filterMap_cons_some (stringId_eq_some.mpr hid)]
      rfl
    apply h.extend hextends (FrameOk.withRelationship h.toContentOk hrelationship)
    case hproofs => rw [sectionsOf_withRelationship]
    case hnames => exact hproofs
    case hobjects =>
      constructor
      case eventsOk => exact List.forall_mem_nil _
      case evidenceOk => exact List.forall_mem_nil _
      case relationshipsOk => exact List.forall_mem_singleton.mpr hok
      case references => exact List.forall_mem_nil _
      case endpoints => exact List.forall_mem_singleton.mpr (hextends.endpoints hendpoints)
      case distinct =>
        rw [hids]
        exact List.nodup_singleton id
      case fresh =>
        rw [hids]
        exact List.forall_mem_singleton.mpr hfresh

end

/-! ### Correspondences -/

section

variable {rt : Runtime} {bundle : Members}

/-- The objects of a kind have distinct ids. -/
theorem ContentOk.idsOfKind (h : ContentOk rt bundle) (kind : ObjectKind) :
    (∀ item ∈ kind.items (sectionsOf bundle),
      isNonEmptyString (get (some item) kind.idField) = true) ∧
    (idsOf kind.idField (kind.items (sectionsOf bundle))).Nodup := by
  have hobjects := h.objectIds
  rw [Sections.objectIds, List.nodup_append, List.nodup_append] at hobjects
  cases kind with
  | event => exact ⟨fun e he ↦ (h.events e he).texts "event_id" (by decide), hobjects.1⟩
  | evidence =>
    exact ⟨fun e he ↦ (h.evidence e he).texts "evidence_id" (by decide), hobjects.2.1.1⟩
  | issuer => exact ⟨fun i hi ↦ (h.issuers i hi).issuerId, h.issuerIds⟩

/-- The reference to an object of the bundle resolves. -/
theorem ObjectKind.ref_mem_refs {s : Sections} (kind : ObjectKind) {id : JsString}
    (h : id ∈ idsOf kind.idField (kind.items s)) : kind.ref id ∈ s.refs := by
  rw [Sections.refs, List.mem_append, List.mem_append]
  cases kind with
  | event => exact .inl (.inl (List.mem_map_of_mem h))
  | evidence => exact .inl (.inr (List.mem_map_of_mem h))
  | issuer => exact .inr (List.mem_map_of_mem h)

/-- An object of a bundle that a reference can name, by its position. -/
structure ObjectAt (s : Sections) (kind : ObjectKind) (index : Nat) (id : JsString) : Prop where
  exists_object : ∃ object, (kind.items s)[index]? = some object ∧
    get (some object) kind.idField = some (.str id)

theorem ObjectAt.mem_idsOf {s : Sections} {kind : ObjectKind} {index : Nat} {id : JsString}
    (h : ObjectAt s kind index id) : id ∈ idsOf kind.idField (kind.items s) := by
  obtain ⟨object, hobject, hid⟩ := h.exists_object
  exact Core.mem_idsOf.mpr ⟨object, List.mem_of_getElem? hobject, hid⟩

/-- Objects at different positions have different references. -/
theorem ObjectAt.ref_ne (h : ContentOk rt bundle) {source target : ObjectKind} {i j : Nat}
    {id id' : JsString} (hsource : ObjectAt (sectionsOf bundle) source i id)
    (htarget : ObjectAt (sectionsOf bundle) target j id') (hdistinct : (source, i) ≠ (target, j)) :
    source.ref id ≠ target.ref id' := by
  intro heq
  obtain ⟨rfl, rfl⟩ := ObjectKind.ref_inj heq
  apply hdistinct
  obtain ⟨object, hobject, hid⟩ := hsource.exists_object
  obtain ⟨object', hobject', hid'⟩ := htarget.exists_object
  obtain ⟨htexts, hids⟩ := h.idsOfKind source
  have hnodup := nodup_map_get htexts hids
  have hlt : i < ((source.items (sectionsOf bundle)).map fun item ↦
      get (some item) source.idField).length := by
    rw [List.length_map]
    exact (List.getElem?_eq_some_iff.mp hobject).1
  have hsame : i = j := by
    apply (List.getElem?_inj hlt hnodup).mp
    rw [List.getElem?_map, List.getElem?_map, hobject, hobject', Option.map_some, Option.map_some,
      hid, hid']
  rw [hsame]

/-- Two distinct objects of an accepted bundle can be put in correspondence exactly when neither
id has a colon or white space. -/
theorem correspondence_accepted_iff {result : Verification}
    (hbundle : verifyBundle rt (.obj bundle) = .ok result) (hvalid : result.status ≠ .invalid)
    (hproofs : ∀ proof ∈ (sectionsOf bundle).proofs,
      get (get (some proof) (js "target")) (js "target_type") ≠
        some (.str (js "BUNDLE_PAYLOAD")))
    {source target : ObjectKind} {i j : Nat} {id id' : JsString}
    (hsource : ObjectAt (sectionsOf bundle) source i id)
    (htarget : ObjectAt (sectionsOf bundle) target j id') (hdistinct : (source, i) ≠ (target, j))
    {relationshipId : JsString} (hne : relationshipId ≠ [])
    (hfresh : relationshipId ∉ (sectionsOf bundle).objectIds) {extensions relationship : Members}
    (hcreated : createRelationship rt
      { relationshipId
        relationshipType := js "CORRESPONDS_TO"
        fromRef := source.ref id
        toRef := target.ref id'
        extensions } = .ok relationship) :
    (∃ result', verifyBundle rt (.obj (withRelationship bundle (.obj relationship))) =
        .ok result' ∧ result'.status ≠ .invalid) ↔
      isRefText id = true ∧ isRefText id' = true := by
  obtain ⟨rt', members, hread, hok, -⟩ := verifyBundle_accepts.mp ⟨hbundle, hvalid⟩
  cases hread
  have hbuilt := createRelationship_built hcreated
  have hrelationshipId : get (some (.obj relationship)) (js "relationship_id") =
      some (.str relationshipId) := hbuilt.get_str (by decide) rfl
  have hfrom : get (some (.obj relationship)) (js "from_ref") = some (.str (source.ref id)) :=
    hbuilt.get_str (by decide) rfl
  have hto : get (some (.obj relationship)) (js "to_ref") = some (.str (target.ref id')) :=
    hbuilt.get_str (by decide) rfl
  have hendpoints : EndpointsOk (sectionsOf bundle) (.obj relationship) := by
    simp only [EndpointsOk, List.forall_mem_cons, hfrom, hto, isOneOf_str]
    exact ⟨source.ref_mem_refs hsource.mem_idsOf, target.ref_mem_refs htarget.mem_idsOf,
      List.forall_mem_nil _⟩
  have hidne {kind : ObjectKind} {index : Nat} {id : JsString}
      (h : ObjectAt (sectionsOf bundle) kind index id) : id ≠ [] := by
    obtain ⟨object, hobject, hid⟩ := h.exists_object
    have htext := (hok.idsOfKind kind).1 object (List.mem_of_getElem? hobject)
    exact isNonEmptyString_str.mp (hid ▸ htext)
  have haccepted : (∃ result', verifyBundle rt
      (.obj (withRelationship bundle (.obj relationship))) = .ok result' ∧
        result'.status ≠ .invalid) ↔ Accepted rt (withRelationship bundle (.obj relationship)) := by
    simp only [verifyBundle_accepts]
    constructor
    · rintro ⟨result', rt', members, hread, hok', -⟩
      cases hread
      exact hok'
    · intro hok'
      exact ⟨_, rt, _, rfl, hok', rfl⟩
  rw [haccepted, accepted_withRelationship_iff hok hproofs hbuilt.encodable hrelationshipId hfresh,
    and_iff_left hendpoints, createRelationship_ok_iff hcreated]
  rw [← source.test_ref (hidne hsource), ← target.test_ref (hidne htarget)]
  constructor
  · intro hoptions
    exact ⟨hoptions.fromRef, hoptions.toRef⟩
  · rintro ⟨hfromRef, htoRef⟩
    exact
      { relationshipId := hne
        relationshipType := by
          show js "CORRESPONDS_TO" ∈ relationshipTypes
          decide
        fromRef := hfromRef
        toRef := htoRef
        distinct := ObjectAt.ref_ne hok.toContentOk hsource htarget hdistinct
        vocabulary := source.vocabulary_correspondsTo target id id' }

end

/-! ### Three issuers -/

def referencingHashes : List (Nat × String) :=
  [(124, "c1b859a93e1a093affe5fd73da499b404a0084f91e2069df0082c92439ac6187"),
    (146, "36254401257ec1bcef295dcc39183b2ba1c6a59013ebeff3ca5923eb1f593fc7"),
    (608, "fef18a0f78e3b7d33e77418dd7874f005e1b3d85e9e49472aac1def51467f0b4"),
    (847, "838a30ae7860eaf9fe6556f39acbe2ead8e59158789a816ea2eab4fb9c26bc88"),
    (869, "46261c82a56f37339c8d9affdc956fe8de326d52d67e2e271c03070c0fec6b76")]

/-- The sample host on the texts of the relationships and payloads below, which differ in
length. -/
def referencingRuntime : Runtime :=
  { sampleRuntime with
    sha256 := fun bytes ↦ digestOf
      ((referencingHashes.find? fun entry ↦ entry.1 = bytes.length).elim "" Prod.snd) }

/-- A bundle that lists three issuers, the last of them under the default id of the relay. -/
def issuersBundle : Members :=
  createEvidenceBundle
    { bundleId := js "b1"
      actionId := js "a1"
      createdAt := js "2026-07-01T10:00:06Z"
      issuers := [js "psp", js "bank", js "urn:timeproofs:relay:local"].map fun issuerId ↦
        .obj (createIssuerDescriptor
          { issuerId, displayName := issuerId, issuerType := js "ORGANIZATION" }) }

/-- A correspondence of the first issuer with another one. -/
def issuerCorrespondence (issuerId : String) : RelationshipOptions where
  relationshipId := js "r1"
  relationshipType := js "CORRESPONDS_TO"
  fromRef := ObjectKind.issuer.ref (js "psp")
  toRef := ObjectKind.issuer.ref (js issuerId)

/-- The status of the issuers' bundle with a correspondence. -/
def correspondenceStatus (issuerId : String) : Option Status :=
  (createRelationship referencingRuntime (issuerCorrespondence issuerId)).toOption.bind
    fun relationship ↦ (verifyBundle referencingRuntime
      (.obj (withRelationship issuersBundle (.obj relationship)))).toOption.map
        Verification.status

private theorem issuersBundleFacts :
    (verifyBundle referencingRuntime (.obj issuersBundle)).toOption.map Verification.status =
      some .incomplete ∧
    (createRelationship referencingRuntime (issuerCorrespondence "bank")).toOption.isSome = true ∧
    correspondenceStatus "urn:timeproofs:relay:local" = some .invalid := by
  decide +kernel

private theorem issuersBundle_objectAt :
    ObjectAt (sectionsOf issuersBundle) .issuer 0 (js "psp") ∧
      ObjectAt (sectionsOf issuersBundle) .issuer 1 (js "bank") ∧
      ObjectAt (sectionsOf issuersBundle) .issuer 2 (js "urn:timeproofs:relay:local") :=
  ⟨⟨_, rfl, rfl⟩, ⟨_, rfl, rfl⟩, ⟨_, rfl, rfl⟩⟩

private theorem exists_incomplete : ∃ result,
    verifyBundle referencingRuntime (.obj issuersBundle) = .ok result ∧
      result.status ≠ .invalid := by
  obtain ⟨result, hresult, hstatus⟩ := exists_of_status issuersBundleFacts.1
  exact ⟨result, hresult, by rw [hstatus]; nofun⟩

/-- Two issuers whose ids have neither a colon nor white space can be put in correspondence. -/
theorem correspondence_accepted_iff_issuers :
    ∃ relationship, createRelationship referencingRuntime (issuerCorrespondence "bank") =
        .ok relationship ∧
      ∃ result, verifyBundle referencingRuntime
          (.obj (withRelationship issuersBundle (.obj relationship))) = .ok result ∧
        result.status ≠ .invalid := by
  obtain ⟨result, hresult, hvalid⟩ := exists_incomplete
  obtain ⟨hpsp, hbank, -⟩ := issuersBundle_objectAt
  cases hcreated : createRelationship referencingRuntime (issuerCorrespondence "bank") with
  | error message =>
    have hsome := issuersBundleFacts.2.1
    rw [hcreated] at hsome
    cases hsome
  | ok relationship =>
    refine ⟨relationship, rfl, ?_⟩
    apply (correspondence_accepted_iff hresult hvalid (fun _ hproof ↦ by cases hproof) hpsp hbank
      (by decide) (by decide) (by decide) hcreated).mpr
    decide

/-- The default issuer id of the relay, which the verifier admits, cannot be referenced. -/
theorem relayIssuer_not_referenceable :
    (∃ result, verifyBundle referencingRuntime (.obj issuersBundle) = .ok result ∧
      result.status ≠ .invalid) ∧
    (sectionsOf issuersBundle).proofs = [] ∧
    ObjectAt (sectionsOf issuersBundle) .issuer 0 (js "psp") ∧
    ObjectAt (sectionsOf issuersBundle) .issuer 2 (js "urn:timeproofs:relay:local") ∧
    js "r1" ∉ (sectionsOf issuersBundle).objectIds ∧
    ∃ relationship, createRelationship referencingRuntime
        (issuerCorrespondence "urn:timeproofs:relay:local") = .ok relationship ∧
      ∃ result, verifyBundle referencingRuntime
          (.obj (withRelationship issuersBundle (.obj relationship))) = .ok result ∧
        result.status = .invalid := by
  obtain ⟨hpsp, -, hrelay⟩ := issuersBundle_objectAt
  refine ⟨exists_incomplete, rfl, hpsp, hrelay, by decide, ?_⟩
  obtain ⟨relationship, hcreated, hstatus⟩ :=
    Option.bind_eq_some_iff.mp issuersBundleFacts.2.2
  refine ⟨relationship, ?_, exists_of_status hstatus⟩
  cases hresult : createRelationship referencingRuntime
      (issuerCorrespondence "urn:timeproofs:relay:local") with
  | error message =>
    rw [hresult] at hcreated
    cases hcreated
  | ok created =>
    rw [hresult] at hcreated
    exact congrArg Except.ok (Option.some.inj hcreated)

end TimeProofs.Core
