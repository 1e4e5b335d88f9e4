import TimeProofs.Core.Built

/-!
# Extended bundles

A bundle that keeps the issuers and the objects of another one and appends objects to them. What
the verifier accepts of the first one it accepts of the second, except for the proofs whose target
is the whole payload.
-/

namespace TimeProofs.Core

open TimeProofs.Base TimeProofs.Json

/-- A member of the payload of a bundle. -/
def payloadMember (bundle : Members) (name : JsString) : Option Json :=
  member (membersOf (member bundle (js "payload"))) name

/-- A bundle with further objects after those of another one. -/
structure Extends (bundle extended : Members) (events evidence relationships : List Json) :
    Prop where
  issuers : (sectionsOf extended).issuers = (sectionsOf bundle).issuers
  events : (sectionsOf extended).events = (sectionsOf bundle).events ++ events
  evidence : (sectionsOf extended).evidence = (sectionsOf bundle).evidence ++ evidence
  relationships : (sectionsOf extended).relationships =
    (sectionsOf bundle).relationships ++ relationships
  specVersion : payloadMember extended (js "spec_version") =
    payloadMember bundle (js "spec_version")
  profile : payloadMember extended (js "profile") = payloadMember bundle (js "profile")

/-- A target that is not the whole payload. -/
def NamesObject (target : Option Json) : Prop :=
  get target (js "target_type") ≠ some (.str (js "BUNDLE_PAYLOAD"))

/-- The object that is found among some is found with more after them. -/
theorem findById_append {idField : JsString} {id : Option Json} {items : List Json} {found : Json}
    (h : findById idField id items = .ok (some found)) (more : List Json) :
    findById idField id (items ++ more) = .ok (some found) := by
  induction items with
  | nil => cases h
  | cons item rest ih =>
    cases item with
    | null => cases h
    | _ =>
      rw [List.cons_append]
      unfold findById at h ⊢
      split
      · next heq => rwa [if_pos heq] at h
      · next hne =>
        rw [if_neg hne] at h
        exact ih h

section

variable {rt : Runtime} {bundle extended : Members} {events evidence relationships : List Json}

/-- The collection of a target keeps its objects. -/
theorem Extends.collection (h : Extends bundle extended events evidence relationships)
    {targetType collection idField : JsString}
    (hcollection : targetCollection targetType = some (collection, idField)) :
    ∃ more, itemsOf (payloadMember extended collection) =
      itemsOf (payloadMember bundle collection) ++ more := by
  unfold targetCollection at hcollection
  split_ifs at hcollection
  · cases hcollection
    exact ⟨events, h.events⟩
  · cases hcollection
    exact ⟨evidence, h.evidence⟩
  · cases hcollection
    exact ⟨relationships, h.relationships⟩

/-- A target that names an object resolves as before. -/
theorem Extends.resolveTarget (h : Extends bundle extended events evidence relationships)
    {target : Option Json} {resolved : Resolved} (hnames : NamesObject target)
    (hresolved : resolveTarget rt bundle target = .ok (some resolved)) :
    resolveTarget rt extended target = .ok (some resolved) := by
  have htext : isText (get target (js "target_type")) (js "BUNDLE_PAYLOAD") = false := by
    rw [← Bool.not_eq_true, isText_iff]
    exact hnames
  unfold Core.resolveTarget at hresolved ⊢
  simp only [htext, Bool.false_eq_true, if_false] at hresolved ⊢
  split at hresolved
  · cases hresolved
  · next hobject =>
    rw [if_neg hobject]
    split at hresolved
    · cases hresolved
    · split at hresolved
      · split at hresolved <;> cases hresolved
      · next collection idField hcollection =>
        obtain ⟨more, hmore⟩ := h.collection hcollection
        split at hresolved
        · cases hresolved
        · cases hresolved
        · next object hfound =>
          have hfound' : findById idField (get target (js "target_id"))
              (itemsOf (payloadMember extended collection)) = .ok (some object) := by
            rw [hmore]
            exact findById_append hfound more
          simp only [payloadMember] at hfound'
          simp only [hfound']
          exact hresolved

/-- A proof of an object verifies as before. -/
theorem Extends.proofResult (h : Extends bundle extended events evidence relationships)
    {issuers : List Json} {proof : Members} (hnames : NamesObject (member proof (js "target")))
    (hresult : proofResult rt bundle issuers proof = .ok .valid) :
    proofResult rt extended issuers proof = .ok .valid := by
  have hspecVersion := h.specVersion
  have hprofile := h.profile
  simp only [payloadMember] at hspecVersion hprofile
  unfold Core.proofResult verifySignatureProof at hresult ⊢
  dsimp only at hresult ⊢
  split at hresult
  · cases hresult
  · cases hresult
  · next resolved hresolved =>
    simp only [h.resolveTarget hnames hresolved]
    split at hresult
    · cases hresult
    · next hdigest =>
      rw [if_neg hdigest, ← hresult]
      unfold verifyWithIssuer verifyWithKey checkSignature
      rw [hspecVersion, hprofile]

theorem Extends.issuerIds (h : Extends bundle extended events evidence relationships) :
    (sectionsOf extended).issuerIds = (sectionsOf bundle).issuerIds := by
  unfold Sections.issuerIds
  rw [h.issuers]

/-- An accepted proof of an object stays accepted. -/
theorem Extends.proofAccepted (h : Extends bundle extended events evidence relationships)
    {proof : Json} (hnames : NamesObject (get (some proof) (js "target")))
    (haccepted : ProofAccepted rt bundle proof) : ProofAccepted rt extended proof := by
  obtain ⟨members, rfl, hshape, hresult⟩ := haccepted
  refine ⟨members, rfl, ?_, ?_⟩
  · rw [h.issuerIds]
    exact hshape
  · rw [h.issuers]
    exact h.proofResult hnames hresult

theorem idsOf_append (idField : JsString) (items more : List Json) :
    idsOf idField (items ++ more) = idsOf idField items ++ idsOf idField more :=
  List.filterMap_append

/-- The references of an event that resolve keep resolving. -/
theorem Extends.references (h : Extends bundle extended events evidence relationships)
    {event : Json} (hok : ReferencesOk (sectionsOf bundle) event) :
    ReferencesOk (sectionsOf extended) event where
  parents := by
    intro parent hparent
    obtain ⟨hdigest, ⟨cause, hcause, hvalue⟩, hother⟩ := hok.parents parent hparent
    refine ⟨hdigest, ⟨cause, ?_, hvalue⟩, hother⟩
    rw [h.events]
    exact List.mem_append_left events hcause
  evidence := by
    intro ref href
    obtain ⟨id, hid, heq⟩ := isOneOf_iff.mp (hok.evidence ref href)
    rw [h.evidence, idsOf_append]
    exact isOneOf_iff.mpr ⟨id, List.mem_append_left _ hid, heq⟩

/-- A reference that resolves keeps resolving. -/
theorem Extends.refs_subset (h : Extends bundle extended events evidence relationships) :
    (sectionsOf bundle).refs ⊆ (sectionsOf extended).refs := by
  intro ref href
  unfold Sections.refs at href ⊢
  rw [h.events, h.evidence, h.issuers, idsOf_append, idsOf_append, List.map_append,
    List.map_append]
  simp only [List.mem_append] at href ⊢
  tauto

theorem Extends.endpoints (h : Extends bundle extended events evidence relationships)
    {relationship : Json} (hok : EndpointsOk (sectionsOf bundle) relationship) :
    EndpointsOk (sectionsOf extended) relationship := by
  intro name hname
  obtain ⟨ref, href, heq⟩ := isOneOf_iff.mp (hok name hname)
  exact isOneOf_iff.mpr ⟨ref, h.refs_subset href, heq⟩

/-- The ids of objects that are appended together. -/
def appendedIds (events evidence relationships : List Json) : List JsString :=
  idsOf (js "event_id") events ++ (idsOf (js "evidence_id") evidence ++
    idsOf (js "relationship_id") relationships)

/-- The ids of an extended bundle are those that it had and those of the further objects. -/
theorem Extends.objectIds_perm (h : Extends bundle extended events evidence relationships) :
    (sectionsOf extended).objectIds.Perm
      ((sectionsOf bundle).objectIds ++ appendedIds events evidence relationships) := by
  unfold Sections.objectIds appendedIds
  rw [h.events, h.evidence, h.relationships]
  simp only [idsOf_append]
  rw [List.perm_iff_count]
  intro id
  simp only [List.count_append]
  omega

/-- Objects that can be appended to a bundle. -/
structure Appendable (rt : Runtime) (bundle extended : Members)
    (events evidence relationships : List Json) : Prop where
  eventsOk : ∀ event ∈ events, EventOk rt (sectionsOf bundle).issuerIds event
  evidenceOk : ∀ item ∈ evidence, EvidenceOk rt (sectionsOf bundle).issuerIds item
  relationshipsOk : ∀ relationship ∈ relationships, RelationshipOk rt relationship
  references : ∀ event ∈ events, ReferencesOk (sectionsOf extended) event
  endpoints : ∀ relationship ∈ relationships, EndpointsOk (sectionsOf extended) relationship
  distinct : (appendedIds events evidence relationships).Nodup
  fresh : ∀ id ∈ appendedIds events evidence relationships, id ∉ (sectionsOf bundle).objectIds

/-- The frame of a bundle: everything but its issuers, objects and proofs. -/
structure FrameOk (rt : Runtime) (bundle : Members) : Prop where
  envelope : EnvelopeOk (.obj bundle)
  payload : PayloadOk (membersOf (member bundle (js "payload")))
  predecessors : ∀ digest ∈ (sectionsOf bundle).predecessors, validDigest (some digest) = true
  distinctPredecessors : ∃ texts,
    collect ((sectionsOf bundle).predecessors.map (digestKey rt)) = .ok texts ∧ texts.Nodup
  payloadDigest : ∃ digest, calculatePayloadDigest rt bundle = .ok digest

/-- An accepted bundle stays accepted when objects are appended to it, as long as its proofs name
objects. -/
theorem Accepted.extend (h : Accepted rt bundle)
    (hextends : Extends bundle extended events evidence relationships)
    (hframe : FrameOk rt extended)
    (hobjects : Appendable rt bundle extended events evidence relationships)
    (hproofs : (sectionsOf extended).proofs = (sectionsOf bundle).proofs)
    (hnames : ∀ proof ∈ (sectionsOf bundle).proofs,
      NamesObject (get (some proof) (js "target"))) : Accepted rt extended := by
  have hissuerIds := hextends.issuerIds
  constructor
  case toContentOk =>
    constructor
    case envelope => exact hframe.envelope
    case payload => exact hframe.payload
    case issuers =>
      rw [hextends.issuers]
      exact h.issuers
    case issuerIds =>
      rw [hissuerIds]
      exact h.issuerIds
    case events =>
      rw [hissuerIds, hextends.events, List.forall_mem_append]
      exact ⟨h.events, hobjects.eventsOk⟩
    case evidence =>
      rw [hissuerIds, hextends.evidence, List.forall_mem_append]
      exact ⟨h.evidence, hobjects.evidenceOk⟩
    case relationships =>
      rw [hextends.relationships, List.forall_mem_append]
      exact ⟨h.relationships, hobjects.relationshipsOk⟩
    case objectIds =>
      rw [hextends.objectIds_perm.nodup_iff, List.nodup_append]
      refine ⟨h.objectIds, hobjects.distinct, ?_⟩
      intro id hid id' hid' heq
      exact hobjects.fresh id' hid' (heq ▸ hid)
    case references =>
      intro event hevent
      rw [hextends.events, List.mem_append] at hevent
      rcases hevent with hold | hnew
      · exact hextends.references (h.references event hold)
      · exact hobjects.references event hnew
    case endpoints =>
      intro relationship hrelationship
      rw [hextends.relationships, List.mem_append] at hrelationship
      rcases hrelationship with hold | hnew
      · exact hextends.endpoints (h.endpoints relationship hold)
      · exact hobjects.endpoints relationship hnew
    case predecessors => exact hframe.predecessors
    case distinctPredecessors => exact hframe.distinctPredecessors
    case payloadDigest => exact hframe.payloadDigest
  case proofs =>
    intro proof hproof
    rw [hproofs] at hproof
    exact hextends.proofAccepted (hnames proof hproof) (h.proofs proof hproof)
  case proofIds =>
    rw [hproofs]
    exact h.proofIds

end

/-! ### Linked events -/

/-- After a member of an object with distinct names has been set, the others are the old ones. -/
theorem mem_setMember_of_nodup {ms : Members} (hu : (ms.map Prod.fst).Nodup) {key : JsString}
    {v : Json} {m : JsString × Json} (h : m ∈ setMember ms key v) :
    m = (key, v) ∨ m ∈ withoutMember ms key := by
  induction ms with
  | nil => exact .inl (List.mem_singleton.mp h)
  | cons first rest ih =>
    obtain ⟨k, w⟩ := first
    rw [List.map_cons, List.nodup_cons] at hu
    rw [setMember] at h
    by_cases hk : k = key
    · rw [if_pos hk] at h
      rcases List.mem_cons.mp h with rfl | hrest
      · exact .inl rfl
      · refine .inr (List.mem_filter.mpr ⟨List.mem_cons_of_mem _ hrest, ?_⟩)
        rw [decide_eq_true_eq]
        intro heq
        have hmem : m.1 ∈ rest.map Prod.fst := List.mem_map_of_mem hrest
        rw [heq, ← hk] at hmem
        exact hu.1 hmem
    · rw [if_neg hk] at h
      rcases List.mem_cons.mp h with rfl | hrest
      · refine .inr (List.mem_filter.mpr ⟨List.mem_cons_self, ?_⟩)
        rw [decide_eq_true_eq]
        exact hk
      · apply (ih hu.2 hrest).imp_right
        intro hmem
        obtain ⟨hold, hne⟩ := List.mem_filter.mp hmem
        exact List.mem_filter.mpr ⟨List.mem_cons_of_mem _ hold, hne⟩

/-- A list of one digest has no duplicates. -/
theorem digestKeys_singleton {rt : Runtime} {digest : Json}
    (h : validDigest (some digest) = true) :
    ∃ texts, collect ([digest].map (digestKey rt)) = .ok texts ∧ texts.Nodup := by
  obtain ⟨hex, hdigest, -⟩ := validDigest_iff.mp h
  have hkey : digestKey rt digest = .ok (js "sha-256" ++ js ":" ++ hex) := by
    unfold digestKey
    rw [hdigest.algorithm, hdigest.value]
    rfl
  rw [List.map_singleton, hkey]
  exact ⟨_, rfl, List.nodup_singleton _⟩

/-- The digest of an object that matches is a valid one. -/
theorem DigestMatches.valid {rt : Runtime} {object : Members} (h : DigestMatches rt object) :
    validDigest (member object (js "object_digest")) = true := by
  obtain ⟨hex, hhash, hdigest⟩ := h
  obtain ⟨bytes, -, rfl⟩ := map_eq_ok_iff.mp hhash
  exact validDigest_iff.mpr ⟨_, hdigest, sha256Pattern_sha256Hex rt bytes⟩

/-- An event that was given parents, and the digest of its content with them. -/
structure Links (rt : Runtime) (event : Members) (parents : List Json) (linked : Members) :
    Prop where
  keys : exactKeys (some (.obj event)) eventKeys = true
  plain : Plain (.obj event)
  plainParents : ∀ parent ∈ parents, Plain parent
  eq : withObjectDigest rt (setMember event (js "parent_event_digests") (.arr parents)) =
    .ok linked

section

variable {rt : Runtime} {event linked : Members} {parents : List Json}

/-- A linked event keeps its other members. -/
theorem Links.get_eq (h : Links rt event parents linked) {key : JsString}
    (hdigest : key ≠ js "object_digest") (hparents : key ≠ js "parent_event_digests") :
    get (some (.obj linked)) key = get (some (.obj event)) key := by
  rw [get, member_withObjectDigest h.eq hdigest, member_setMember, if_neg (Ne.symm hparents), get]
  cases hmember : member event key with
  | none => rfl
  | some v => exact congrArg some (h.plain.member hmember)

theorem Links.parents_eq (h : Links rt event parents linked) :
    get (some (.obj linked)) (js "parent_event_digests") = some (.arr parents) := by
  rw [get, member_withObjectDigest h.eq (by decide), member_setMember, if_pos rfl, Option.map_some,
    clone_arr, map_clone_of_plain h.plainParents]

theorem Links.names (h : Links rt event parents linked) :
    linked.map Prod.fst = event.map Prod.fst := by
  obtain ⟨ms, hms, hperm⟩ := exactKeys_iff.mp h.keys
  cases hms
  have hparents : js "parent_event_digests" ∈ event.map Prod.fst :=
    hperm.mem_iff.mpr (by decide)
  have hdigest : js "object_digest" ∈ event.map Prod.fst := hperm.mem_iff.mpr (by decide)
  obtain ⟨digest, -, hlinked⟩ := map_eq_ok_iff.mp h.eq
  have hnames : (cloneMembers (setMember event (js "parent_event_digests")
      (.arr parents))).map Prod.fst = event.map Prod.fst := by
    rw [map_fst_cloneMembers, map_fst_setMember hparents]
  rw [← hlinked, map_fst_setMember (hnames ▸ hdigest), hnames]

theorem Links.keys_linked (h : Links rt event parents linked) :
    exactKeys (some (.obj linked)) eventKeys = true := by
  obtain ⟨ms, hms, hperm⟩ := exactKeys_iff.mp h.keys
  cases hms
  exact exactKeys_iff.mpr ⟨linked, rfl, by rwa [h.names]⟩

/-- A linked event is encodable, as its content was when its digest was taken. -/
theorem Links.encodable (h : Links rt event parents linked) : Encodable (.obj linked) := by
  have hkeys : (linked.map Prod.fst).Nodup := by
    obtain ⟨ms, hms, hperm⟩ := exactKeys_iff.mp h.keys_linked
    cases hms
    exact hperm.nodup_iff.mpr (by decide)
  obtain ⟨digest, hdigest, hlinked⟩ := map_eq_ok_iff.mp h.eq
  obtain ⟨hcontent, hencodable⟩ := encodable_of_digestValue hdigest
  rw [encodable_obj] at hcontent ⊢
  intro m hm
  have hnames : ((cloneMembers (setMember event (js "parent_event_digests")
      (.arr parents))).map Prod.fst).Nodup := by
    rw [← hlinked] at hkeys
    by_cases hmem : js "object_digest" ∈ (cloneMembers (setMember event
        (js "parent_event_digests") (.arr parents))).map Prod.fst
    · rwa [map_fst_setMember hmem] at hkeys
    · rw [map_fst_setMember_of_not_mem hmem] at hkeys
      exact (List.nodup_append.mp hkeys).1
  rw [← hlinked] at hm
  rcases mem_setMember_of_nodup hnames hm with rfl | hold
  · exact ⟨(by decide : wellFormed (js "object_digest") = true), hencodable⟩
  · exact hcontent m hold

/-- A linked event of the profile is one when its parents are distinct. -/
theorem EventOk.link {issuerIds : List JsString} (hok : EventOk rt issuerIds (.obj event))
    (h : Links rt event parents linked)
    (hparents : ∃ texts, collect (parents.map (digestKey rt)) = .ok texts ∧ texts.Nodup) :
    EventOk rt issuerIds (.obj linked) := by
  have hget (key : JsString) (hdigest : key ≠ js "object_digest")
      (hparents : key ≠ js "parent_event_digests") := h.get_eq hdigest hparents
  have hnames : ∀ name ∈ eventTextMembers,
      js name ≠ js "object_digest" ∧ js name ≠ js "parent_event_digests" := by decide
  have hvocabulary := hok.vocabulary
  constructor
  case keys => exact h.keys_linked
  case texts =>
    intro name hname
    rw [hget _ (hnames name hname).1 (hnames name hname).2]
    exact hok.texts name hname
  case vocabulary =>
    unfold VocabularyOk at hvocabulary ⊢
    dsimp only at hvocabulary ⊢
    rw [hget (js "event_type") (by decide) (by decide), hget (js "phase") (by decide) (by decide),
      hget (js "status") (by decide) (by decide), hget (js "source_class") (by decide) (by decide)]
    exact hvocabulary
  case parents => exact ⟨parents, h.parents_eq, hparents⟩
  case digest => exact digestMatches_withObjectDigest h.eq
  case recordedAfter =>
    rw [hget (js "recorded_at") (by decide) (by decide),
      hget (js "occurred_at") (by decide) (by decide)]
    exact hok.recordedAfter
  all_goals rw [hget _ (by decide) (by decide)]
  case phase => exact hok.phase
  case eventType => exact hok.eventType
  case status => exact hok.status
  case sourceClass => exact hok.sourceClass
  case occurredAt => exact hok.occurredAt
  case recordedAt => exact hok.recordedAt
  case issuerRef => exact hok.issuerRef
  case evidenceRefs => exact hok.evidenceRefs
  case actor => exact hok.actor
  case subject => exact hok.subject
  case claim => exact hok.claim
  case extensions => exact hok.extensions

end

end TimeProofs.Core
