import TimeProofs.Core.Integrity

/-!
# Rearranged bundles

Bundles that differ in the order of their issuers, events, evidence, relationships and proofs.
The first-match lookups of the verifier find the same objects in either order, so that a
rearranged bundle is accepted with the same valid proofs.
-/

namespace TimeProofs.Core

open TimeProofs.Base TimeProofs.Json

/-- The same member names in the same places, with related values. -/
def SameNames (R : JsString → Json → Json → Prop) : Members → Members → Prop :=
  List.Forall₂ fun m n ↦ m.1 = n.1 ∧ R m.1 m.2 n.2

/-- Arrays with the same elements in some order. -/
def SameElements (v w : Json) : Prop :=
  ∃ items items', v = .arr items ∧ w = .arr items' ∧ items.Perm items'

/-- The payload members whose order is free. -/
def rearrangeable : List JsString :=
  [js "issuers", js "events", js "evidence", js "relationships"]

/-- A payload member with its elements in some order, where the order is free. -/
def RearrangedMember (name : JsString) (v w : Json) : Prop :=
  v = w ∨ name ∈ rearrangeable ∧ SameElements v w

/-- A payload with the elements of four of its arrays in some order. -/
def RearrangedPayload (v w : Json) : Prop :=
  ∃ payload payload', v = .obj payload ∧ w = .obj payload' ∧
    SameNames RearrangedMember payload payload'

/-- A bundle with the elements of five of its arrays in some order. -/
def Rearranged : Members → Members → Prop :=
  SameNames fun name v w ↦ v = w ∨ name = js "payload" ∧ RearrangedPayload v w ∨
    name = js "proofs" ∧ SameElements v w

section

variable {R : JsString → Json → Json → Prop} {ms ns : Members}

theorem SameNames.map_fst (h : SameNames R ms ns) : ms.map Prod.fst = ns.map Prod.fst := by
  induction h with
  | nil => rfl
  | cons hm _ ih => rw [List.map_cons, List.map_cons, hm.1, ih]

theorem SameNames.member (h : SameNames R ms ns) (key : JsString) :
    Option.Rel (R key) (member ms key) (member ns key) := by
  induction h with
  | nil => exact .none
  | @cons m n ms ns hm _ ih =>
    obtain ⟨name, v⟩ := m
    obtain ⟨name', w⟩ := n
    obtain ⟨rfl, hR⟩ := hm
    rw [Core.member, Core.member]
    by_cases hname : name = key
    · subst hname
      rw [if_pos rfl, if_pos rfl]
      exact .some hR
    · rw [if_neg hname, if_neg hname]
      exact ih

theorem SameNames.exactKeys (h : SameNames R ms ns) (names : List JsString) :
    Core.exactKeys (some (.obj ms)) names = Core.exactKeys (some (.obj ns)) names := by
  rw [Bool.eq_iff_iff, exactKeys_iff, exactKeys_iff]
  simp only [Option.some.injEq, Json.obj.injEq, exists_eq_left', h.map_fst]

end

/-- A value that is unchanged, or an array with the same elements. -/
def Reordered (v w : Json) : Prop := v = w ∨ SameElements v w

theorem optionRel_imp {R S : Json → Json → Prop} (himp : ∀ v w, R v w → S v w)
    {v w : Option Json} (h : Option.Rel R v w) : Option.Rel S v w := by
  cases h with
  | none => exact .none
  | some hvw => exact .some (himp _ _ hvw)

theorem perm_itemsOf {v w : Option Json} (h : Option.Rel Reordered v w) :
    (itemsOf v).Perm (itemsOf w) := by
  cases h with
  | none => exact .refl _
  | some h =>
    rcases h with rfl | ⟨items, items', rfl, rfl, hperm⟩
    · exact .refl _
    · exact hperm

theorem isArray_congr {v w : Option Json}
    (h : Option.Rel Reordered v w) : isArray v = isArray w := by
  cases h with
  | none => rfl
  | some h =>
    rcases h with rfl | ⟨items, items', rfl, rfl, -⟩
    · rfl
    · rfl

theorem Reordered.encodable {v w : Json} (h : Reordered v w) (hv : Encodable v) :
    Encodable w := by
  rcases h with rfl | ⟨items, items', rfl, rfl, hperm⟩
  · exact hv
  · rw [encodable_arr] at hv ⊢
    exact fun x hx ↦ hv x (hperm.mem_iff.mpr hx)

/-- Ids are found in either order. -/
theorem perm_idsOf (idField : JsString) {items items' : List Json} (h : items.Perm items') :
    (idsOf idField items).Perm (idsOf idField items') := h.filterMap _

/-- Sections with the same elements, in some order where the order is free. -/
structure Sections.Rearranged (s t : Sections) : Prop where
  issuers : s.issuers.Perm t.issuers
  events : s.events.Perm t.events
  evidence : s.evidence.Perm t.evidence
  relationships : s.relationships.Perm t.relationships
  predecessors : s.predecessors = t.predecessors
  proofs : s.proofs.Perm t.proofs

section

variable {b b' : Members}

theorem Rearranged.payload (h : Rearranged b b') :
    SameNames RearrangedMember (membersOf (member b (js "payload")))
      (membersOf (member b' (js "payload"))) := by
  have hrefl (ms : Members) : SameNames RearrangedMember ms ms := by
    apply List.forall₂_same.mpr
    intro m _
    exact ⟨rfl, .inl rfl⟩
  have hmember := h.member (js "payload")
  revert hmember
  generalize member b (js "payload") = v
  generalize member b' (js "payload") = w
  intro hmember
  cases hmember with
  | none => exact hrefl _
  | some hm =>
    rcases hm with rfl | ⟨-, payload, payload', rfl, rfl, hpayload⟩ | ⟨hname, -⟩
    · exact hrefl _
    · exact hpayload
    · exact absurd hname (by decide)

theorem Rearranged.proofs (h : Rearranged b b') :
    Option.Rel Reordered (member b (js "proofs"))
      (member b' (js "proofs")) := by
  apply optionRel_imp _ (h.member (js "proofs"))
  intro v w hvw
  rcases hvw with rfl | ⟨hname, -⟩ | ⟨-, hperm⟩
  · exact .inl rfl
  · exact absurd hname (by decide)
  · exact .inr hperm

/-- A payload member is an array with the same elements, or unchanged. -/
theorem Rearranged.payloadMember (h : Rearranged b b') (name : JsString) :
    Option.Rel Reordered
      (member (membersOf (member b (js "payload"))) name)
      (member (membersOf (member b' (js "payload"))) name) := by
  apply optionRel_imp _ (h.payload.member name)
  intro v w hvw
  exact hvw.imp_right And.right

/-- Where the order is not free, a payload member is unchanged. -/
theorem Rearranged.fixedMember (h : Rearranged b b') (name : JsString)
    (hname : name ∉ rearrangeable) :
    member (membersOf (member b (js "payload"))) name =
      member (membersOf (member b' (js "payload"))) name := by
  have hmember := h.payload.member name
  revert hmember
  generalize member (membersOf (member b (js "payload"))) name = v
  generalize member (membersOf (member b' (js "payload"))) name = w
  intro hmember
  cases hmember with
  | none => rfl
  | some hvw => exact congrArg some (hvw.resolve_right fun hno ↦ hname hno.1)

theorem Rearranged.sections (h : Rearranged b b') :
    (sectionsOf b).Rearranged (sectionsOf b') where
  issuers := perm_itemsOf (h.payloadMember _)
  events := perm_itemsOf (h.payloadMember _)
  evidence := perm_itemsOf (h.payloadMember _)
  relationships := perm_itemsOf (h.payloadMember _)
  predecessors := congrArg itemsOf (h.fixedMember _ (by decide))
  proofs := perm_itemsOf h.proofs

end

/-! ### Acceptance -/

theorem isOneOf_mono {texts texts' : List JsString} (h : texts ⊆ texts') {v : Option Json}
    (hv : isOneOf texts v = true) : isOneOf texts' v = true := by
  obtain ⟨s, hs, rfl⟩ := isOneOf_iff.mp hv
  exact isOneOf_iff.mpr ⟨s, h hs, rfl⟩

section

variable {rt : Runtime} {ids ids' : List JsString}

theorem EventOk.mono {event : Json} (h : EventOk rt ids event) (hids : ids ⊆ ids') :
    EventOk rt ids' event :=
  { h with issuerRef := isOneOf_mono hids h.issuerRef }

theorem EvidenceOk.mono {evidence : Json} (h : EvidenceOk rt ids evidence) (hids : ids ⊆ ids') :
    EvidenceOk rt ids' evidence :=
  { h with issuerRef := isOneOf_mono hids h.issuerRef }

theorem ProofOk.mono {proof : Members} (h : ProofOk ids proof) (hids : ids ⊆ ids') :
    ProofOk ids' proof :=
  { h with issuerRef := isOneOf_mono hids h.issuerRef }

end

section

variable {s t : Sections}

theorem Sections.Rearranged.issuerIds (h : s.Rearranged t) : s.issuerIds.Perm t.issuerIds :=
  perm_idsOf _ h.issuers

theorem Sections.Rearranged.objectIds (h : s.Rearranged t) : s.objectIds.Perm t.objectIds :=
  (perm_idsOf _ h.events).append ((perm_idsOf _ h.evidence).append (perm_idsOf _ h.relationships))

theorem Sections.Rearranged.refs (h : s.Rearranged t) : s.refs.Perm t.refs :=
  (((perm_idsOf _ h.events).map _).append ((perm_idsOf _ h.evidence).map _)).append
    ((perm_idsOf _ h.issuers).map _)

theorem ReferencesOk.rearranged (h : s.Rearranged t) {event : Json} (hok : ReferencesOk s event) :
    ReferencesOk t event where
  parents := by
    intro parent hparent
    obtain ⟨hvalid, ⟨cause, hcause, hvalue⟩, hself⟩ := hok.parents parent hparent
    exact ⟨hvalid, ⟨cause, h.events.mem_iff.mp hcause, hvalue⟩, hself⟩
  evidence := fun ref href ↦
    isOneOf_mono (perm_idsOf _ h.evidence).subset (hok.evidence ref href)

theorem EndpointsOk.rearranged (h : s.Rearranged t) {relationship : Json}
    (hok : EndpointsOk s relationship) : EndpointsOk t relationship :=
  fun name hname ↦ isOneOf_mono h.refs.subset (hok name hname)

end

section

variable {rt : Runtime} {b b' : Members}

theorem EnvelopeOk.rearranged (h : Rearranged b b') (hok : EnvelopeOk (.obj b)) :
    EnvelopeOk (.obj b') where
  keys := h.exactKeys _ ▸ hok.keys
  payload := by
    have hmember := h.member (js "payload")
    obtain ⟨payload, hpayload⟩ := isObject_iff.mp hok.payload
    rw [Core.get] at hpayload
    rw [hpayload] at hmember
    rw [Core.get, isObject_iff]
    revert hmember
    generalize member b' (js "payload") = w
    intro hmember
    cases hmember with
    | some hm =>
      rcases hm with rfl | ⟨-, -, payload', -, rfl, -⟩ | ⟨hname, -⟩
      · exact ⟨payload, rfl⟩
      · exact ⟨payload', rfl⟩
      · exact absurd hname (by decide)
  proofs := by
    have hproofs := isArray_congr h.proofs
    rw [Core.get, ← hproofs]
    exact hok.proofs

theorem PayloadOk.rearranged (h : Rearranged b b')
    (hok : PayloadOk (membersOf (member b (js "payload")))) :
    PayloadOk (membersOf (member b' (js "payload"))) where
  keys := h.payload.exactKeys _ ▸ hok.keys
  specVersion := h.fixedMember (js "spec_version") (by decide) ▸ hok.specVersion
  profile := h.fixedMember (js "profile") (by decide) ▸ hok.profile
  bundleId := h.fixedMember (js "bundle_id") (by decide) ▸ hok.bundleId
  actionId := h.fixedMember (js "action_id") (by decide) ▸ hok.actionId
  createdAt := h.fixedMember (js "created_at") (by decide) ▸ hok.createdAt
  arrays := fun name hname ↦ isArray_congr (h.payloadMember _) ▸ hok.arrays name hname
  extensions := h.fixedMember (js "extensions") (by decide) ▸ hok.extensions

theorem SameNames.encodable {R : JsString → Json → Json → Prop} {ms ns : Members}
    (hR : ∀ name v w, R name v w → Encodable v → Encodable w) (h : SameNames R ms ns)
    (hms : Encodable (.obj ms)) : Encodable (.obj ns) := by
  rw [encodable_obj] at hms ⊢
  induction h with
  | nil => exact hms
  | @cons m n ms ns hm _ ih =>
    rw [List.forall_mem_cons] at hms ⊢
    obtain ⟨⟨hname, hvalue⟩, hrest⟩ := hms
    exact ⟨⟨hm.1 ▸ hname, hR _ _ _ hm.2 hvalue⟩, ih hrest⟩

/-- The payload has a digest in either order. -/
theorem calculatePayloadDigest_rearranged (h : Rearranged b b') (henvelope : EnvelopeOk (.obj b))
    (hdigest : ∃ digest, calculatePayloadDigest rt b = .ok digest) :
    ∃ digest, calculatePayloadDigest rt b' = .ok digest := by
  rw [henvelope.payloadDigest_iff] at hdigest
  rw [(henvelope.rearranged h).payloadDigest_iff]
  apply h.payload.encodable _ hdigest
  intro name v w hvw
  exact Reordered.encodable (hvw.imp_right And.right)

theorem ContentOk.rearranged (h : Rearranged b b') (hok : ContentOk rt b) : ContentOk rt b' where
  envelope := hok.envelope.rearranged h
  payload := hok.payload.rearranged h
  issuers := fun issuer hissuer ↦ hok.issuers issuer (h.sections.issuers.mem_iff.mpr hissuer)
  issuerIds := h.sections.issuerIds.nodup_iff.mp hok.issuerIds
  events := fun event hevent ↦
    (hok.events event (h.sections.events.mem_iff.mpr hevent)).mono h.sections.issuerIds.subset
  evidence := fun evidence hevidence ↦
    (hok.evidence evidence (h.sections.evidence.mem_iff.mpr hevidence)).mono
      h.sections.issuerIds.subset
  relationships := fun relationship hrelationship ↦
    hok.relationships relationship (h.sections.relationships.mem_iff.mpr hrelationship)
  objectIds := h.sections.objectIds.nodup_iff.mp hok.objectIds
  references := fun event hevent ↦
    (hok.references event (h.sections.events.mem_iff.mpr hevent)).rearranged h.sections
  endpoints := fun relationship hrelationship ↦
    (hok.endpoints relationship (h.sections.relationships.mem_iff.mpr hrelationship)).rearranged
      h.sections
  predecessors := h.sections.predecessors ▸ hok.predecessors
  distinctPredecessors := h.sections.predecessors ▸ hok.distinctPredecessors
  payloadDigest := calculatePayloadDigest_rearranged h hok.envelope hok.payloadDigest

/-- Outside payload targets, a proof is signed in either order. -/
theorem Signed.rearranged (h : Rearranged b b') {proof : Members} {object content : Json}
    {hex issuerId keyId : JsString} {issuer key : Json}
    (hnot : get (member proof (js "target")) (js "target_type") ≠
      some (.str (js "BUNDLE_PAYLOAD")))
    (hs : Signed rt b proof object content hex issuerId keyId issuer key) :
    Signed rt b' proof object content hex issuerId keyId issuer key :=
  { hs with
    names := by
      cases hs.names with
      | payload htype => exact absurd htype hnot
      | object htype hcollection hid honly =>
        exact .object htype hcollection hid (honly.perm (perm_itemsOf (h.payloadMember _)))
    signer := { hs.signer with issuer := hs.signer.issuer.perm h.sections.issuers } }

/-- A bundle without proofs of its payload. -/
def NoPayloadProof (b : Members) : Prop :=
  ∀ proof ∈ (sectionsOf b).proofs,
    get (get (some proof) (js "target")) (js "target_type") ≠ some (.str (js "BUNDLE_PAYLOAD"))

theorem ProofAccepted.rearranged (h : Rearranged b b') (hok : ContentOk rt b) {proof : Json}
    (hnot : get (get (some proof) (js "target")) (js "target_type") ≠
      some (.str (js "BUNDLE_PAYLOAD")))
    (hproof : ProofAccepted rt b proof) : ProofAccepted rt b' proof := by
  obtain ⟨members, rfl, hmembers, hresult⟩ := hproof
  have hmembers' := hmembers.mono h.sections.issuerIds.subset
  refine ⟨members, rfl, hmembers', ?_⟩
  rw [proofResult_iff (hok.rearranged h) hmembers']
  obtain ⟨object, content, hex, issuerId, keyId, issuer, key, hs⟩ :=
    (proofResult_iff hok hmembers).mp hresult
  exact ⟨object, content, hex, issuerId, keyId, issuer, key, hs.rearranged h hnot⟩

/-- A rearranged bundle without payload proofs is accepted as well. -/
theorem Accepted.rearranged (h : Rearranged b b') (hnot : NoPayloadProof b)
    (hok : Accepted rt b) : Accepted rt b' where
  toContentOk := hok.toContentOk.rearranged h
  proofs := by
    intro proof hproof
    have hmem := h.sections.proofs.mem_iff.mpr hproof
    exact (hok.proofs proof hmem).rearranged h hok.toContentOk (hnot proof hmem)
  proofIds := (perm_idsOf _ h.sections.proofs).nodup_iff.mp hok.proofIds

/-- The valid proofs are the same. -/
theorem Accepted.validProofs_rearranged (h : Rearranged b b') (hnot : NoPayloadProof b)
    (hok : Accepted rt b) :
    (validProofs rt b (sectionsOf b)).Perm (validProofs rt b' (sectionsOf b')) := by
  rw [hok.validProofs_eq, (hok.rearranged h hnot).validProofs_eq]
  exact h.sections.proofs.map _

end

theorem isEmpty_perm {items items' : List Json} (h : items.Perm items') :
    items.isEmpty = items'.isEmpty := by
  rw [Bool.eq_iff_iff, List.isEmpty_iff, List.isEmpty_iff, ← List.length_eq_zero_iff,
    ← List.length_eq_zero_iff, h.length_eq]

theorem Sections.Rearranged.incompleteReasons {s t : Sections} (h : s.Rearranged t) :
    incompleteReasons s = incompleteReasons t := by
  rw [Core.incompleteReasons, Core.incompleteReasons, isEmpty_perm h.events,
    isEmpty_perm h.evidence, isEmpty_perm h.proofs]

end TimeProofs.Core
