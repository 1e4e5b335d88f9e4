import TimeProofs.Core.Signing

/-!
# Plain data

Values that their JSON text keeps: every number is finite and zero has no sign. What the builders
return is plain, so a bundle is stored and read back as it was built.
-/

namespace TimeProofs.Core

open TimeProofs.Base TimeProofs.Json

/-- A value that its JSON text keeps. -/
def Plain (v : Json) : Prop := clone v = v

theorem Plain.clone_eq {v : Json} (h : Plain v) : clone v = v := h

theorem plain_clone (v : Json) : Plain (clone v) := clone_clone v

theorem plain_str (s : JsString) : Plain (.str s) := clone_str s

theorem map_eq_self_iff {α : Type} {f : α → α} {l : List α} : l.map f = l ↔ ∀ a ∈ l, f a = a := by
  induction l with
  | nil => simp
  | cons a rest ih => rw [List.map_cons, List.cons.injEq, ih, List.forall_mem_cons]

theorem plain_arr_iff {items : List Json} : Plain (.arr items) ↔ ∀ v ∈ items, Plain v := by
  rw [Plain, clone_arr, Json.arr.injEq, map_eq_self_iff]
  rfl

theorem plain_obj_iff {ms : Members} : Plain (.obj ms) ↔ ∀ m ∈ ms, Plain m.2 := by
  rw [Plain, clone_obj, Json.obj.injEq, map_eq_self_iff]
  constructor
  · exact fun h m hm ↦ congrArg Prod.snd (h m hm)
  · exact fun h m hm ↦ congrArg (Prod.mk m.1) (h m hm)

theorem map_clone_of_plain {items : List Json} (h : ∀ v ∈ items, Plain v) :
    items.map clone = items := map_eq_self_iff.mpr h

theorem Plain.member {ms : Members} (h : Plain (.obj ms)) {key : JsString} {v : Json}
    (hv : member ms key = some v) : Plain v :=
  plain_obj_iff.mp h _ (mem_of_member_eq hv)

theorem Plain.get {v : Json} (h : Plain v) {key : JsString} {w : Json}
    (hw : get (some v) key = some w) : Plain w := by
  cases v with
  | obj ms => exact h.member hw
  | _ => cases hw

theorem Plain.items {v : Option Json} (h : ∀ w, v = some w → Plain w) :
    ∀ item ∈ itemsOf v, Plain item := by
  unfold itemsOf
  split
  · exact plain_arr_iff.mp (h _ rfl)
  · exact fun item hitem ↦ (List.not_mem_nil hitem).elim

theorem plain_setMember {ms : Members} (h : Plain (.obj ms)) (key : JsString) {v : Json}
    (hv : Plain v) : Plain (.obj (setMember ms key v)) := by
  rw [plain_obj_iff] at h ⊢
  induction ms with
  | nil =>
    intro m hm
    rw [List.mem_singleton.mp hm]
    exact hv
  | cons first rest ih =>
    rw [List.forall_mem_cons] at h
    rw [setMember]
    split
    · exact List.forall_mem_cons.mpr ⟨hv, h.2⟩
    · exact List.forall_mem_cons.mpr ⟨h.1, ih h.2⟩

section

variable {rt : Runtime}

theorem plain_digestObject (hex : JsString) : Plain (digestObject hex) := by
  rw [digestObject, plain_obj_iff]
  exact List.forall_mem_cons.mpr ⟨plain_str _, List.forall_mem_singleton.mpr (plain_str _)⟩

theorem plain_digestValue {v digest : Json} (h : digestValue rt v = .ok digest) : Plain digest := by
  obtain ⟨bytes, -, rfl⟩ := map_eq_ok_iff.mp h
  exact plain_digestObject _

theorem plain_withObjectDigest {value result : Members}
    (h : withObjectDigest rt value = .ok result) : Plain (.obj result) := by
  obtain ⟨digest, hdigest, rfl⟩ := map_eq_ok_iff.mp h
  refine plain_setMember ?_ _ (plain_digestValue hdigest)
  have hclone := plain_clone (.obj value)
  rwa [clone] at hclone

/-- An object with its digest keeps its other members. -/
theorem member_withObjectDigest {value result : Members}
    (h : withObjectDigest rt value = .ok result) {key : JsString} (hne : key ≠ js "object_digest") :
    member result key = (member value key).map clone := by
  obtain ⟨digest, -, rfl⟩ := map_eq_ok_iff.mp h
  rw [member_setMember, if_neg (Ne.symm hne), member_cloneMembers]

theorem plain_createOutcomeEvent {o : EventOptions} {event : Members}
    (h : createOutcomeEvent rt o = .ok event) : Plain (.obj event) := plain_withObjectDigest h

theorem plain_createEvidenceItem {o : EvidenceOptions} {evidence : Members}
    (h : createEvidenceItem rt o = .ok evidence) : Plain (.obj evidence) :=
  plain_withObjectDigest h

theorem plain_createRelationship {o : RelationshipOptions} {relationship : Members}
    (h : createRelationship rt o = .ok relationship) : Plain (.obj relationship) :=
  plain_withObjectDigest h

theorem plain_bundlePayload (o : BundleOptions) : Plain (.obj (bundlePayload o)) := by
  rw [plain_obj_iff, bundlePayload]
  simp only [List.forall_mem_cons, plain_str, plain_clone, true_and]
  exact fun m hm ↦ (List.not_mem_nil hm).elim

theorem plain_createEvidenceBundle (o : BundleOptions) : Plain (.obj (createEvidenceBundle o)) := by
  rw [plain_obj_iff, createEvidenceBundle]
  simp only [List.forall_mem_cons, plain_bundlePayload, plain_clone, true_and]
  exact fun m hm ↦ (List.not_mem_nil hm).elim

theorem sectionsOf_createEvidenceBundle (o : BundleOptions) :
    sectionsOf (createEvidenceBundle o) =
      { issuers := o.issuers.map clone
        events := o.events.map clone
        evidence := o.evidence.map clone
        relationships := o.relationships.map clone
        predecessors := o.predecessorBundleDigests.map clone
        proofs := o.proofs.map clone } := by
  simp only [← cloneItems_eq_map]
  rfl

/-- The array of a plain bundle under a name of its payload. -/
theorem Plain.collection {bundle : Members} (h : Plain (.obj bundle)) (name : JsString) :
    ∀ v ∈ itemsOf (Core.member (membersOf (Core.member bundle (js "payload"))) name), Plain v := by
  apply Plain.items
  intro w hw
  unfold membersOf at hw
  split at hw
  · next ms hms => exact (h.member hms).member hw
  · cases hw

theorem mem_of_findById {idField : JsString} {id : Option Json} {items : List Json} {item : Json}
    (h : findById idField id items = .ok (some item)) : item ∈ items := by
  induction items with
  | nil => cases h
  | cons first rest ih =>
    unfold findById at h
    split at h
    · cases h
    · cases h
    · next heq =>
      cases heq
      split at h
      · cases h
        exact List.mem_cons_self
      · exact List.mem_cons_of_mem first (ih h)

/-- The digest that a target of a plain bundle resolves to. -/
theorem plain_resolved {bundle : Members} (hbundle : Plain (.obj bundle)) {target : Option Json}
    {resolved : Resolved} (h : resolveTarget rt bundle target = .ok (some resolved))
    {digest : Json} (hdigest : resolved.digest = some digest) : Plain digest := by
  unfold resolveTarget at h
  dsimp only at h
  split at h
  · cases h
  · split at h
    · split at h
      · cases h
      · next hpayload =>
        cases h
        cases hdigest
        exact plain_digestValue hpayload
    · split at h
      · cases h
      · split at h
        · split at h <;> cases h
        · split at h
          · cases h
          · cases h
          · next object hobject =>
            split at h
            · cases h
              exact (hbundle.collection _ object (mem_of_findById hobject)).get hdigest
            · cases h

/-- What `createSignatureProof` returns. -/
theorem createSignatureProof_shape {request : ProofRequest} {proof : Json}
    (h : createSignatureProof rt request = .ok proof) :
    ∃ digest signature, proof = .obj (signatureProof request digest signature) ∧
      ∃ resolved, resolveTarget rt request.bundle (some (.obj request.target)) =
        .ok (some resolved) ∧ resolved.digest = some digest := by
  unfold createSignatureProof at h
  simp only [bind_eq_ok_iff] at h
  obtain ⟨resolved, hresolved, h⟩ := h
  split at h
  · next digest hdigest =>
    split at h
    · obtain ⟨found, hfound, h⟩ := bind_eq_ok_iff.mp h
      cases hfound
      obtain ⟨input, -, h⟩ := bind_eq_ok_iff.mp h
      obtain ⟨privateKey, -, h⟩ := bind_eq_ok_iff.mp h
      split at h
      · cases h
      · cases h
        cases resolved with
        | none => cases hdigest
        | some resolved => exact ⟨digest, _, rfl, resolved, hresolved, hdigest⟩
    · cases h
  · cases h

/-- A created proof is plain when its bundle and its target are. -/
theorem plain_createSignatureProof {request : ProofRequest} {proof : Json}
    (hbundle : Plain (.obj request.bundle)) (htarget : Plain (.obj request.target))
    (h : createSignatureProof rt request = .ok proof) : Plain proof := by
  obtain ⟨digest, signature, rfl, resolved, hresolved, hdigest⟩ := createSignatureProof_shape h
  have hsigned : Plain (.obj (signedTarget request.target digest)) := by
    rw [plain_obj_iff, signedTarget, List.forall_mem_append]
    refine ⟨fun m hm ↦ ?_, List.forall_mem_singleton.mpr (plain_resolved hbundle hresolved hdigest)⟩
    exact plain_obj_iff.mp htarget m (List.mem_filter.mp hm).1
  rw [plain_obj_iff, signatureProof]
  simp only [List.forall_mem_cons, plain_str, hsigned, true_and]
  exact fun m hm ↦ (List.not_mem_nil hm).elim

end

end TimeProofs.Core
