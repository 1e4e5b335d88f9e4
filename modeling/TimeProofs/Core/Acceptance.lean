import TimeProofs.Core.Accepts

/-!
# Accepted bundles

The condition under which no stage of `verifyBundle` reports an issue, and that it is exactly
the condition under which the status is not INVALID.
-/

namespace TimeProofs.Core

open TimeProofs.Base TimeProofs.Json

theorem stringId_eq_some {idField : JsString} {item : Json} {id : JsString} :
    stringId idField item = some id ↔ get (some item) idField = some (.str id) := by
  unfold stringId
  split
  · next s h => simp [h]
  · next h => exact ⟨nofun, fun hid ↦ absurd hid (h id)⟩

/-- An id of a section belongs to one of its objects. -/
theorem mem_idsOf {idField : JsString} {items : List Json} {id : JsString} :
    id ∈ idsOf idField items ↔ ∃ item ∈ items, get (some item) idField = some (.str id) := by
  simp only [idsOf, List.mem_filterMap, stringId_eq_some]

theorem lookup_isSome_iff {α : Type} {table : List (JsString × α)} {key : JsString} :
    (lookup table key).isSome = true ↔ key ∈ table.map Prod.fst := by
  simp [lookup]

private theorem mem_registerId {registry : Registry} {id : Option Json} {path k : JsString} :
    k ∈ (registerId registry id path).map Prod.fst ↔
      k ∈ registry.map Prod.fst ∨ id = some (.str k) := by
  unfold registerId
  split
  · next id =>
    split
    · next h =>
      have := lookup_isSome_iff.mp h
      simp only [Option.some.injEq, Json.str.injEq]
      exact ⟨.inl, fun hk ↦ hk.elim (fun h ↦ h) fun h ↦ h ▸ this⟩
    · simp [eq_comm]
  · next h =>
    simp only [iff_self_or]
    exact fun hid ↦ absurd hid (h k)

private theorem clean_duplicateIdCheck {registry : Registry} {id : Option Json}
    {path : JsString} :
    (duplicateIdCheck registry id path).Clean ↔
      ∀ k, id = some (.str k) → k ∉ registry.map Prod.fst := by
  unfold duplicateIdCheck
  split
  · next id =>
    cases h : lookup registry id with
    | none =>
      have : id ∉ registry.map Prod.fst := fun hmem ↦ by
        simpa [h] using lookup_isSome_iff.mpr hmem
      simpa using this
    | some first =>
      have : id ∈ registry.map Prod.fst := lookup_isSome_iff.mp (by simp [h])
      simpa [Check.Clean] using this
  · next h =>
    simp only [Check.clean_ok_nil, true_iff]
    exact fun k hid ↦ absurd hid (h k)

private theorem mem_register (c : Collection) (registry : Registry) (index : Nat) (item : Json)
    (k : JsString) :
    k ∈ (c.register registry index item).map Prod.fst ↔
      k ∈ registry.map Prod.fst ∨ stringId (js c.idField) item = some k := by
  rw [Collection.register, mem_registerId, stringId_eq_some, Collection.idOf]

/-- The ids registered by a collection are those of its objects. -/
theorem mem_registered {c : Collection} {registry : Registry} {items : List Json}
    {k : JsString} :
    k ∈ (c.registered registry items).map Prod.fst ↔
      k ∈ registry.map Prod.fst ∨ k ∈ idsOf (js c.idField) items :=
  Check.seen_visited (fun (r : Registry) k ↦ k ∈ r.map Prod.fst) (mem_register c)

/-- A collection is accepted when its objects are, and its ids are new and distinct. -/
theorem clean_collection {c : Collection} (check : Json → JsString → BundleCheck)
    {P : Json → Prop} (hcheck : ∀ item path, (check item path).Clean ↔ P item)
    {registry : Registry} {items : List Json} :
    (c.verify check registry items).Clean ↔
      (∀ item ∈ items, P item) ∧ (idsOf (js c.idField) items).Nodup ∧
        ∀ k ∈ idsOf (js c.idField) items, k ∉ registry.map Prod.fst :=
  Check.clean_visit_distinct (fun (r : Registry) k ↦ k ∈ r.map Prod.fst)
    (stringId (js c.idField)) (mem_register c) fun registry index item ↦ by
      simp only [Check.clean_both, hcheck, clean_duplicateIdCheck, stringId_eq_some,
        Collection.idOf]

/-- The envelope of the profile. -/
structure EnvelopeOk (bundle : Json) : Prop where
  keys : exactKeys (some bundle) topLevelKeys = true
  payload : isObject (get (some bundle) (js "payload")) = true
  proofs : isArray (get (some bundle) (js "proofs")) = true

theorem clean_verifyEnvelope {bundle : Json} :
    (verifyEnvelope bundle).Clean ↔ EnvelopeOk bundle := by
  unfold verifyEnvelope
  split
  · next members =>
    simp only [Check.clean_all, List.forall_mem_cons, List.not_mem_nil, false_imp_iff,
      implies_true, and_true, clean_flag, clean_requireObject, Bool.not_eq_false']
    constructor
    · rintro ⟨h₁, h₂, h₃⟩
      exact ⟨h₁, h₂, h₃⟩
    · rintro ⟨h₁, h₂, h₃⟩
      exact ⟨h₁, h₂, h₃⟩
  · next h =>
    simp only [clean_flag, Bool.true_eq_false, false_iff]
    intro hok
    obtain ⟨ms, hms, -⟩ := exactKeys_iff.mp hok.keys
    exact h ms (Option.some.inj hms)

/-- The payload members of the profile. -/
structure PayloadOk (payload : Members) : Prop where
  keys : exactKeys (some (.obj payload)) payloadKeys = true
  specVersion : member payload (js "spec_version") = some (.str (js "0.1"))
  profile : member payload (js "profile") = some (.str (js "TP-JSON-0.1"))
  bundleId : isNonEmptyString (member payload (js "bundle_id")) = true
  actionId : isNonEmptyString (member payload (js "action_id")) = true
  createdAt : validUtcTimestamp (member payload (js "created_at")) = true
  arrays : ∀ name ∈ payloadArrays, isArray (member payload (js name)) = true
  extensions : isObject (member payload (js "extensions")) = true

theorem clean_verifyPayload {payload : Members} :
    (verifyPayload payload).Clean ↔ PayloadOk payload := by
  simp only [verifyPayload, Check.clean_all, List.forall_mem_cons, List.not_mem_nil,
    false_imp_iff, implies_true, and_true, List.forall_mem_map, clean_flag, clean_requireText,
    clean_requireObject, Bool.not_eq_false', isText_iff]
  constructor
  · rintro ⟨h₁, h₂, h₃, h₄, h₅, h₆, h₇, h₈⟩
    exact ⟨h₁, h₂, h₃, h₄, h₅, h₆, h₇, h₈⟩
  · rintro ⟨h₁, h₂, h₃, h₄, h₅, h₆, h₇, h₈⟩
    exact ⟨h₁, h₂, h₃, h₄, h₅, h₆, h₇, h₈⟩

/-- The ids of events, evidence and relationships together. -/
def Sections.objectIds (s : Sections) : List JsString :=
  idsOf (js "event_id") s.events ++ (idsOf (js "evidence_id") s.evidence ++
    idsOf (js "relationship_id") s.relationships)

theorem clean_verifyIssuers {rt : Runtime} {issuers : List Json} :
    (verifyIssuers rt issuers).Clean ↔
      (∀ issuer ∈ issuers, IssuerOk rt issuer) ∧ (idsOf (js "issuer_id") issuers).Nodup := by
  rw [verifyIssuers, Check.clean_visit_distinct (P := IssuerOk rt)
    (fun (seen : List JsString) k ↦ k ∈ seen) (stringId (js "issuer_id"))]
  · simp [idsOf]
  · intro seen i issuer k
    rw [List.mem_append, mem_idsOf, stringId_eq_some]
    simp
  · intro seen i issuer
    simp only [Check.clean_both, clean_verifyIssuer, clean_flag, stringId_eq_some,
      ← Bool.not_eq_true, isOneOf_iff]
    simp only [not_exists, not_and]
    exact and_congr_right fun _ ↦ ⟨fun h k hk hmem ↦ h k hmem hk, fun h k hmem hk ↦ h k hk hmem⟩

theorem clean_verifyObjects {rt : Runtime} {s : Sections} :
    (verifyObjects rt s).Clean ↔
      (∀ event ∈ s.events, EventOk rt s.issuerIds event) ∧
      (∀ evidence ∈ s.evidence, EvidenceOk rt s.issuerIds evidence) ∧
      (∀ relationship ∈ s.relationships, RelationshipOk rt relationship) ∧
      s.objectIds.Nodup := by
  simp only [verifyObjects, Check.clean_all, List.forall_mem_cons, List.not_mem_nil,
    false_imp_iff, implies_true, and_true]
  rw [clean_collection (verifyEvent rt s.issuerIds) fun _ _ ↦ clean_verifyEvent,
    clean_collection (verifyEvidence rt s.issuerIds) fun _ _ ↦ clean_verifyEvidence,
    clean_collection (verifyRelationship rt) fun _ _ ↦ clean_verifyRelationship]
  simp only [mem_registered, Sections.objectIds, List.nodup_append, List.map_nil,
    List.not_mem_nil, false_or, not_or, List.mem_append, eventCollection, evidenceCollection,
    relationshipCollection]
  grind

/-- The value of the digest that an object declares. -/
def declaredValue (object : Json) : Option Json :=
  get (get (some object) (js "object_digest")) (js "value")

/-- The references of an event resolve in the bundle. -/
structure ReferencesOk (s : Sections) (event : Json) : Prop where
  parents : ∀ parent ∈ itemsOf (get (some event) (js "parent_event_digests")),
    validDigest (some parent) = true ∧
    (∃ cause ∈ s.events, get (some parent) (js "value") = declaredValue cause) ∧
    get (some parent) (js "value") ≠ declaredValue event
  evidence : ∀ ref ∈ itemsOf (get (some event) (js "evidence_refs")),
    isOneOf (idsOf (js "evidence_id") s.evidence) (some ref) = true

private theorem clean_verifyParent {events : List Json} {event parent : Json} {path : JsString} :
    (verifyParent (eventDigests events) event path parent).Clean ↔
      validDigest (some parent) = true ∧
      (∃ cause ∈ events, get (some parent) (js "value") = declaredValue cause) ∧
      get (some parent) (js "value") ≠ declaredValue event := by
  unfold verifyParent
  dsimp only
  cases hv : validDigest (some parent) with
  | false => simp
  | true =>
    obtain ⟨hex, hd, hp⟩ := validDigest_iff.mp hv
    have htruthy : truthy (some (.str hex)) = true := by
      have : hex ≠ [] := by
        rintro rfl
        simp [sha256Pattern] at hp
      simp [truthy, this]
    have hmem : (eventDigests events).any (sameValueZero (some (.str hex))) = true ↔
        ∃ cause ∈ events, some (.str hex) = declaredValue cause := by
      simp only [List.any_eq_true, sameValueZero_str, eventDigests, List.mem_filter,
        List.mem_map, declaredValue]
      constructor
      · rintro ⟨v, ⟨⟨cause, hcause, rfl⟩, -⟩, h⟩
        exact ⟨cause, hcause, h.symm⟩
      · rintro ⟨cause, hcause, h⟩
        exact ⟨_, ⟨⟨cause, hcause, rfl⟩, h ▸ htruthy⟩, h.symm⟩
    rw [hd.value]
    cases ha : (eventDigests events).any (sameValueZero (some (.str hex))) with
    | false =>
      have := mt hmem.mpr (by simp [ha])
      simp [this]
    | true =>
      have hc := hmem.mp ha
      have hself : strictEqual (some (.str hex)) (declaredValue event) = false ↔
          some (.str hex) ≠ declaredValue event := by
        rw [← Bool.not_eq_true]
        refine not_congr ?_
        cases h : declaredValue event with
        | none => simp [strictEqual]
        | some v => cases v <;> simp [strictEqual]
      simp only [Bool.not_true, Bool.false_eq_true, if_false, clean_flag, true_and, hc]
      exact hself

theorem clean_verifyEventReferences {s : Sections} {index : Nat} {event : Json}
    {parents refs : List Json}
    (hparents : get (some event) (js "parent_event_digests") = some (.arr parents))
    (hrefs : get (some event) (js "evidence_refs") = some (.arr refs)) :
    (verifyEventReferences s index event).Clean ↔ ReferencesOk s event := by
  simp only [verifyEventReferences, hparents, hrefs, iterate, Check.clean_both, Check.clean_all,
    List.forall_mem_map, clean_verifyParent, clean_flag, Bool.not_eq_false']
  constructor
  · rintro ⟨h₁, h₂⟩
    exact ⟨by rwa [hparents], by rwa [hrefs]⟩
  · rintro ⟨h₁, h₂⟩
    rw [hparents] at h₁
    rw [hrefs] at h₂
    exact ⟨h₁, h₂⟩

/-- The typed references that resolve in a bundle. -/
def Sections.refs (s : Sections) : List JsString :=
  (idsOf (js "event_id") s.events).map (js "event" ++ js ":" ++ ·) ++
    (idsOf (js "evidence_id") s.evidence).map (js "evidence" ++ js ":" ++ ·) ++
    (idsOf (js "issuer_id") s.issuers).map (js "issuer" ++ js ":" ++ ·)

private theorem typedRefs_eq {rt : Runtime} {kind idField : String} {items : List Json}
    (h : ∀ item ∈ items, isNonEmptyString (get (some item) (js idField)) = true) :
    typedRefs rt kind idField items =
      ((idsOf (js idField) items).map (js kind ++ js ":" ++ ·)).map .ok := by
  induction items with
  | nil => rfl
  | cons item rest ih =>
    obtain ⟨id, hid, -⟩ := isNonEmptyString_iff.mp (h item (by simp))
    have hids : idsOf (js idField) (item :: rest) = id :: idsOf (js idField) rest :=
      List.filterMap_cons_some (stringId_eq_some.mpr hid)
    rw [hids, List.map_cons, List.map_cons, ← ih fun x hx ↦ h x (by simp [hx])]
    simp only [typedRefs, List.map_cons, hid]
    rfl

/-- With ids that are strings, the typed references are computed. -/
theorem resolvableRefs_eq {rt : Runtime} {s : Sections}
    (hevents : ∀ e ∈ s.events, isNonEmptyString (get (some e) (js "event_id")) = true)
    (hevidence : ∀ e ∈ s.evidence, isNonEmptyString (get (some e) (js "evidence_id")) = true)
    (hissuers : ∀ i ∈ s.issuers, isNonEmptyString (get (some i) (js "issuer_id")) = true) :
    resolvableRefs rt s = .ok s.refs := by
  rw [resolvableRefs, typedRefs_eq hevents, typedRefs_eq hevidence, typedRefs_eq hissuers,
    ← List.map_append, ← List.map_append, collect_eq_ok]
  rfl

/-- The endpoints of a relationship resolve in the bundle. -/
def EndpointsOk (s : Sections) (relationship : Json) : Prop :=
  ∀ name ∈ ["from_ref", "to_ref"],
    isOneOf s.refs (get (some relationship) (js name)) = true

theorem clean_verifyEndpoints {s : Sections} {index : Nat} {relationship : Json} :
    (verifyEndpoints s.refs index relationship).Clean ↔ EndpointsOk s relationship := by
  simp [verifyEndpoints, EndpointsOk]

/-- A proof of the profile whose signature verifies. -/
def ProofAccepted (rt : Runtime) (bundle : Members) (proof : Json) : Prop :=
  ∃ members, proof = .obj members ∧ ProofOk (sectionsOf bundle).issuerIds members ∧
    proofResult rt bundle (sectionsOf bundle).issuers members = .ok .valid

private theorem clean_verifyProofSignature {rt : Runtime} {bundle : Members}
    {issuers : List Json} {proof : Members} {path : JsString} :
    (verifyProofSignature rt bundle issuers proof path).Clean ↔
      proofResult rt bundle issuers proof = .ok .valid := by
  unfold verifyProofSignature
  split <;> simp_all [Check.Clean]

theorem clean_verifyProofs {rt : Runtime} {bundle : Members} :
    (verifyProofs rt bundle (sectionsOf bundle)).Clean ↔
      (∀ proof ∈ (sectionsOf bundle).proofs, ProofAccepted rt bundle proof) ∧
      (idsOf (js "proof_id") (sectionsOf bundle).proofs).Nodup := by
  rw [verifyProofs, Check.clean_visit_distinct (P := ProofAccepted rt bundle)
    (fun (seen : List (Option Json)) k ↦ some (.str k) ∈ seen) (stringId (js "proof_id"))]
  · simp [idsOf]
  · intro seen i proof k
    rw [stringId_eq_some]
    cases proof <;> simp [get, eq_comm]
  · intro seen i proof
    cases proof with
    | obj members =>
      simp only [Check.clean_all, List.forall_mem_cons, List.not_mem_nil, false_imp_iff,
        implies_true, and_true, clean_verifyProofShape, clean_flag, clean_verifyProofSignature,
        stringId_eq_some, ProofAccepted, Json.obj.injEq, exists_eq_left', get]
      have hseen (hok : ProofOk (sectionsOf bundle).issuerIds members) :
          seen.any (sameValueZero (member members (js "proof_id"))) = false ↔
            ∀ k, member members (js "proof_id") = some (.str k) → some (.str k) ∉ seen := by
        obtain ⟨id, hid, -⟩ := isNonEmptyString_iff.mp hok.proofId
        rw [hid, ← Bool.not_eq_true]
        simp only [List.any_eq_true, sameValueZero_str, exists_eq_right, Option.some.injEq,
          Json.str.injEq, forall_eq']
      constructor
      · rintro ⟨h₁, h₂, h₃⟩
        exact ⟨⟨h₁, h₃⟩, (hseen h₁).mp h₂⟩
      · rintro ⟨⟨h₁, h₃⟩, h₂⟩
        exact ⟨h₁, (hseen h₁).mpr h₂, h₃⟩
    | _ => simp [ProofAccepted]

/-! ### The whole bundle -/

/-- A bundle on which no stage before the proofs reports an issue. -/
structure ContentOk (rt : Runtime) (bundle : Members) : Prop where
  envelope : EnvelopeOk (.obj bundle)
  payload : PayloadOk (membersOf (member bundle (js "payload")))
  issuers : ∀ issuer ∈ (sectionsOf bundle).issuers, IssuerOk rt issuer
  issuerIds : (sectionsOf bundle).issuerIds.Nodup
  events : ∀ event ∈ (sectionsOf bundle).events, EventOk rt (sectionsOf bundle).issuerIds event
  evidence : ∀ evidence ∈ (sectionsOf bundle).evidence,
    EvidenceOk rt (sectionsOf bundle).issuerIds evidence
  relationships : ∀ relationship ∈ (sectionsOf bundle).relationships,
    RelationshipOk rt relationship
  objectIds : (sectionsOf bundle).objectIds.Nodup
  references : ∀ event ∈ (sectionsOf bundle).events, ReferencesOk (sectionsOf bundle) event
  endpoints : ∀ relationship ∈ (sectionsOf bundle).relationships,
    EndpointsOk (sectionsOf bundle) relationship
  predecessors : ∀ digest ∈ (sectionsOf bundle).predecessors, validDigest (some digest) = true
  distinctPredecessors : ∃ texts,
    collect ((sectionsOf bundle).predecessors.map (digestKey rt)) = .ok texts ∧ texts.Nodup
  payloadDigest : ∃ digest, calculatePayloadDigest rt bundle = .ok digest

/-- A bundle on which no stage reports an issue. -/
structure Accepted (rt : Runtime) (bundle : Members) : Prop extends ContentOk rt bundle where
  proofs : ∀ proof ∈ (sectionsOf bundle).proofs, ProofAccepted rt bundle proof
  proofIds : (idsOf (js "proof_id") (sectionsOf bundle).proofs).Nodup

theorem clean_verifyPredecessors {rt : Runtime} {predecessors : List Json} :
    (verifyPredecessors rt predecessors).Clean ↔
      (∀ digest ∈ predecessors, validDigest (some digest) = true) ∧
      ∃ texts, collect (predecessors.map (digestKey rt)) = .ok texts ∧ texts.Nodup := by
  rw [verifyPredecessors, Check.clean_both,
    Check.clean_each_const (P := fun digest ↦ validDigest (some digest) = true)
      fun _ _ ↦ by rw [clean_flag, Bool.not_eq_false'], clean_repeatedTexts]

theorem clean_payloadDigestCheck {rt : Runtime} {bundle : Members} :
    (payloadDigestCheck rt bundle).Clean ↔
      ∃ digest, calculatePayloadDigest rt bundle = .ok digest := by
  unfold payloadDigestCheck
  cases calculatePayloadDigest rt bundle <;> simp [Check.Clean]

theorem clean_verifyReferences {rt : Runtime} {s : Sections}
    (hissuers : ∀ issuer ∈ s.issuers, IssuerOk rt issuer)
    (hevents : ∀ event ∈ s.events, EventOk rt s.issuerIds event)
    (hevidence : ∀ evidence ∈ s.evidence, EvidenceOk rt s.issuerIds evidence) :
    (verifyReferences rt s).Clean ↔
      (∀ event ∈ s.events, ReferencesOk s event) ∧
      ∀ relationship ∈ s.relationships, EndpointsOk s relationship := by
  have hrefs : resolvableRefs rt s = .ok s.refs := resolvableRefs_eq
    (fun e he ↦ (hevents e he).texts "event_id" (by decide))
    (fun e he ↦ (hevidence e he).texts "evidence_id" (by decide))
    (fun i hi ↦ (hissuers i hi).issuerId)
  have hevent (index : Nat) (event : Json) (h : event ∈ s.events) :
      (verifyEventReferences s index event).Clean ↔ ReferencesOk s event := by
    obtain ⟨parents, hparents, -⟩ := (hevents event h).parents
    obtain ⟨refs, hrefs, -⟩ := (hevents event h).evidenceRefs
    exact clean_verifyEventReferences hparents hrefs
  simp only [verifyReferences, hrefs, Check.clean_both,
    Check.clean_each_const (P := EndpointsOk s) fun _ _ ↦ clean_verifyEndpoints]
  refine and_congr_left fun _ ↦ ?_
  rw [Check.clean_each]
  constructor
  · intro h event hmem
    obtain ⟨i, hi⟩ := List.mem_iff_getElem?.mp hmem
    exact (hevent i event hmem).mp (h i event hi)
  · intro h i event hi
    have hmem := List.mem_of_getElem? hi
    exact (hevent i event hmem).mpr (h event hmem)

/-- The stages report nothing exactly on accepted bundles. -/
theorem accepted_iff {rt : Runtime} {bundle : Members} :
    Accepted rt bundle ↔ (verifyEnvelope (.obj bundle)).Clean ∧
      (verifyPayload (membersOf (member bundle (js "payload")))).Clean ∧
      (verifyContent rt bundle).Clean := by
  simp only [verifyContent, Check.clean_all, List.forall_mem_cons, List.not_mem_nil,
    false_imp_iff, implies_true, and_true, clean_verifyEnvelope, clean_verifyPayload,
    clean_verifyIssuers, clean_verifyObjects, clean_verifyPredecessors, clean_verifyProofs,
    clean_payloadDigestCheck]
  constructor
  · intro h
    exact ⟨h.envelope, h.payload, ⟨h.issuers, h.issuerIds⟩,
      ⟨h.events, h.evidence, h.relationships, h.objectIds⟩,
      (clean_verifyReferences h.issuers h.events h.evidence).mpr ⟨h.references, h.endpoints⟩,
      ⟨h.predecessors, h.distinctPredecessors⟩, ⟨h.proofs, h.proofIds⟩, h.payloadDigest⟩
  · rintro ⟨h₁, h₂, ⟨h₃, h₄⟩, ⟨h₅, h₆, h₇, h₈⟩, h₉, ⟨h₁₀, h₁₁⟩, ⟨h₁₂, h₁₃⟩, h₁₄⟩
    obtain ⟨hrefs, hends⟩ := (clean_verifyReferences h₃ h₅ h₆).mp h₉
    exact ⟨⟨h₁, h₂, h₃, h₄, h₅, h₆, h₇, h₈, hrefs, hends, h₁₀, h₁₁, h₁₄⟩, h₁₂, h₁₃⟩

/-- The status after all stages is INVALID exactly when there is an error. -/
theorem conclude_status {rt : Runtime} {bundle : Members} {errors : List Issue} :
    (conclude rt bundle errors).status ≠ .invalid ↔ errors = [] := by
  unfold conclude
  cases errors with
  | nil =>
    simp only [List.isEmpty_nil, if_true, iff_true, ne_eq]
    split <;> nofun
  | cons issue more => simp

/-- `verifyBundle` accepts a value exactly when it is an accepted bundle, and then its result is
the one without errors. -/
theorem verifyValue_accepts {rt : Runtime} {bundle : Json} {result : Verification} :
    (verifyValue rt bundle = .ok result ∧ result.status ≠ .invalid) ↔
      ∃ members, bundle = .obj members ∧ Accepted rt members ∧
        result = conclude rt members [] := by
  have hrejected (errors : List Issue) : (rejected errors).status = .invalid := rfl
  constructor
  · rintro ⟨h, hs⟩
    unfold verifyValue at h
    dsimp only at h
    split at h
    · cases h
    · cases h
      exact absurd (hrejected _) hs
    · next henvelope =>
      obtain ⟨members, hm⟩ : ∃ members, bundle = .obj members := by
        have henvelope := clean_verifyEnvelope.mp henvelope
        obtain ⟨ms, hms, -⟩ := exactKeys_iff.mp henvelope.keys
        exact ⟨ms, Option.some.inj hms⟩
      subst hm
      split at h
      · cases h
      · cases h
        exact absurd (hrejected _) hs
      · next hpayload =>
        obtain ⟨errors, hcontent, rfl⟩ := map_eq_ok_iff.mp h
        obtain rfl := conclude_status.mp hs
        exact ⟨members, rfl, accepted_iff.mpr ⟨henvelope, hpayload, hcontent⟩, rfl⟩
  · rintro ⟨members, rfl, hok, rfl⟩
    obtain ⟨henvelope, hpayload, hcontent⟩ := accepted_iff.mp hok
    refine ⟨?_, conclude_status.mpr rfl⟩
    rw [Check.Clean] at henvelope hpayload hcontent
    simp only [verifyValue, membersOf, henvelope]
    simp only [membersOf] at hpayload
    simp only [hpayload, hcontent, Except.map]

/-- `verifyBundle` accepts an input exactly when it reads as an accepted bundle. -/
theorem verifyBundle_accepts {rt : Runtime} {input : Json} {result : Verification} :
    (verifyBundle rt input = .ok result ∧ result.status ≠ .invalid) ↔
      ∃ rt' members, readBundle rt input = .ok (rt', .obj members) ∧ Accepted rt' members ∧
        result = conclude rt' members [] := by
  unfold verifyBundle
  split
  · next issue hread =>
    constructor
    · rintro ⟨h, hs⟩
      cases h
      exact absurd rfl hs
    · rintro ⟨rt', members, h, -⟩
      simp [hread] at h
  · next rt' bundle hread =>
    rw [verifyValue_accepts]
    constructor
    · rintro ⟨members, rfl, h⟩
      exact ⟨rt', members, hread, h⟩
    · rintro ⟨rt'', members, h, hok⟩
      rw [hread] at h
      cases h
      exact ⟨members, rfl, hok⟩

end TimeProofs.Core
