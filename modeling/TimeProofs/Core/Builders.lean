import TimeProofs.Core.Proofs

/-!
# Builders

`packages/core/src/builders.mjs`: the objects of a bundle with their digests. `clone` takes a
value through its JSON text and back, which has no text for a number that is not finite and
drops the sign of zero.
-/

namespace TimeProofs.Core

open TimeProofs.Base TimeProofs.Json

mutual

/-- `clone`, `builders.mjs:3–5`. -/
def clone : Json → Json
  | .null => .null
  | .bool b => .bool b
  | .num x => if x.isFinite then .num (dropZeroSign x) else .null
  | .str s => .str s
  | .arr items => .arr (cloneItems items)
  | .obj members => .obj (cloneMembers members)

/-- `clone` of every array element. -/
def cloneItems : List Json → List Json
  | [] => []
  | v :: rest => clone v :: cloneItems rest

/-- `clone` of every member's value. -/
def cloneMembers : Members → Members
  | [] => []
  | (key, v) :: rest => (key, clone v) :: cloneMembers rest

end

theorem cloneItems_eq_map (items : List Json) : cloneItems items = items.map clone := by
  induction items with
  | nil => rfl
  | cons v rest ih => rw [cloneItems, ih, List.map_cons]

theorem cloneMembers_eq_map (members : Members) :
    cloneMembers members = members.map fun m ↦ (m.1, clone m.2) := by
  induction members with
  | nil => rfl
  | cons m rest ih => rw [cloneMembers, ih, List.map_cons]

@[simp] theorem clone_str (s : JsString) : clone (.str s) = .str s := by rw [clone]

theorem clone_arr (items : List Json) : clone (.arr items) = .arr (items.map clone) := by
  rw [clone, cloneItems_eq_map]

theorem clone_obj (members : Members) :
    clone (.obj members) = .obj (members.map fun m ↦ (m.1, clone m.2)) := by
  rw [clone, cloneMembers_eq_map]

/-- Cloning keeps the member names. -/
theorem map_fst_cloneMembers (members : Members) :
    (cloneMembers members).map Prod.fst = members.map Prod.fst := by
  rw [cloneMembers_eq_map, List.map_map]
  rfl

theorem member_cloneMembers (members : Members) (key : JsString) :
    member (cloneMembers members) key = (member members key).map clone := by
  induction members with
  | nil => rfl
  | cons m rest ih =>
    obtain ⟨name, v⟩ := m
    rw [cloneMembers, member, member]
    split
    · rfl
    · exact ih

/-- Cloning a second time changes nothing. -/
theorem clone_clone (v : Json) : clone (clone v) = clone v := by
  induction v using Json.induct with
  | null => simp [clone]
  | bool b => simp [clone]
  | num x =>
    rw [clone]
    split
    · next h => rw [clone, if_pos (isFinite_dropZeroSign h), dropZeroSign_dropZeroSign]
    · rw [clone]
  | str s => simp
  | arr items ih =>
    rw [clone_arr, clone_arr, List.map_map]
    apply congrArg Json.arr
    apply List.map_congr_left
    intro v hv
    exact ih v hv
  | obj members ih =>
    rw [clone_obj, clone_obj, List.map_map]
    apply congrArg Json.obj
    apply List.map_congr_left
    intro m hm
    exact congrArg (Prod.mk m.1) (ih m hm)

/-- A clone of data with well-formed strings is encodable: its numbers are finite. -/
theorem encodable_clone {v : Json} (h : v.WellFormedText) : Encodable (clone v) := by
  induction v using Json.induct with
  | null => simp [clone, Json.Encodable, Json.All]
  | bool b => simp [clone, Json.Encodable, Json.All]
  | num x =>
    rw [clone]
    split
    · next hx =>
      rw [Json.Encodable, Json.All]
      exact isFinite_dropZeroSign hx
    · simp [Json.Encodable, Json.All]
  | str s =>
    rw [clone_str]
    exact h
  | arr items ih =>
    rw [Json.WellFormedText, Json.all_arr] at h
    rw [clone_arr, encodable_arr, List.forall_mem_map]
    exact fun v hv ↦ ih v hv (h v hv)
  | obj members ih =>
    rw [Json.WellFormedText, Json.all_obj] at h
    rw [clone_obj, encodable_obj, List.forall_mem_map]
    exact fun m hm ↦ ⟨h.1 m.1 (List.mem_map_of_mem hm), ih m hm (h.2 m hm)⟩

/-- `object[key] = v`: in place when the member exists, at the end otherwise. -/
def setMember : Members → JsString → Json → Members
  | [], key, v => [(key, v)]
  | (name, w) :: rest, key, v =>
    if name = key then (key, v) :: rest else (name, w) :: setMember rest key v

theorem member_setMember (ms : Members) (key name : JsString) (v : Json) :
    member (setMember ms key v) name = if key = name then some v else member ms name := by
  induction ms with
  | nil => simp only [setMember, member]
  | cons m rest ih =>
    obtain ⟨k, w⟩ := m
    rw [setMember]
    by_cases hk : k = key
    · subst hk
      rw [if_pos rfl, member, member]
      split <;> rfl
    · rw [if_neg hk, member, member, ih]
      by_cases hname : k = name
      · subst hname
        rw [if_pos rfl, if_pos rfl, if_neg (Ne.symm hk)]
      · rw [if_neg hname, if_neg hname]

/-- Setting a member that exists keeps the names. -/
theorem map_fst_setMember {ms : Members} {key : JsString} (h : key ∈ ms.map Prod.fst) (v : Json) :
    (setMember ms key v).map Prod.fst = ms.map Prod.fst := by
  induction ms with
  | nil => cases h
  | cons m rest ih =>
    obtain ⟨k, w⟩ := m
    rw [setMember]
    by_cases hk : k = key
    · rw [if_pos hk, List.map_cons, List.map_cons, hk]
    · rw [if_neg hk, List.map_cons, List.map_cons, ih]
      exact (List.mem_cons.mp h).resolve_left (Ne.symm hk)

/-- The names after a member has been set. -/
theorem mem_map_fst_setMember {ms : Members} {key name : JsString} {v : Json}
    (h : name ∈ (setMember ms key v).map Prod.fst) : name = key ∨ name ∈ ms.map Prod.fst := by
  induction ms with
  | nil => exact .inl (List.mem_singleton.mp h)
  | cons m rest ih =>
    obtain ⟨k, w⟩ := m
    rw [setMember] at h
    split at h
    · next hk =>
      rcases List.mem_cons.mp h with rfl | hrest
      · exact .inl rfl
      · exact .inr (List.mem_cons_of_mem k hrest)
    · rcases List.mem_cons.mp h with rfl | hrest
      · exact .inr List.mem_cons_self
      · exact (ih hrest).imp_right (List.mem_cons_of_mem k)

/-- `withObjectDigest`, `builders.mjs:7–11`, on an object. -/
def withObjectDigest (rt : Runtime) (value : Members) : Except JsString Members :=
  let result := cloneMembers value
  (calculateObjectDigest rt result).map (setMember result (js "object_digest"))

/-- The arguments of `createIssuerDescriptor`. -/
structure IssuerOptions where
  issuerId : JsString
  displayName : JsString
  issuerType : JsString
  identifiers : List Json := []
  keys : List Json := []
  extensions : Members := []

/-- `createIssuerDescriptor`, `builders.mjs:13–29`. -/
def createIssuerDescriptor (o : IssuerOptions) : Members :=
  [(js "issuer_id", .str o.issuerId), (js "display_name", .str o.displayName),
    (js "issuer_type", .str o.issuerType), (js "identifiers", clone (.arr o.identifiers)),
    (js "keys", clone (.arr o.keys)), (js "extensions", clone (.obj o.extensions))]

/-- The arguments of `createOutcomeEvent`. -/
structure EventOptions where
  eventId : JsString
  phase : JsString
  eventType : JsString
  status : JsString
  occurredAt : Json
  recordedAt : JsString
  sourceClass : JsString
  issuerRef : JsString
  actor : Json
  subject : Json
  claim : Json
  evidenceRefs : List JsString := []
  parentEventDigests : List Json := []
  extensions : Members := []

/-- The members of an outcome event before its digest. -/
def eventMembers (o : EventOptions) : Members :=
  [(js "event_id", .str o.eventId), (js "phase", .str o.phase),
    (js "event_type", .str o.eventType), (js "status", .str o.status),
    (js "occurred_at", o.occurredAt), (js "recorded_at", .str o.recordedAt),
    (js "source_class", .str o.sourceClass), (js "issuer_ref", .str o.issuerRef),
    (js "actor", clone o.actor), (js "subject", clone o.subject), (js "claim", clone o.claim),
    (js "evidence_refs", clone (.arr (o.evidenceRefs.map .str))),
    (js "parent_event_digests", clone (.arr o.parentEventDigests)),
    (js "extensions", clone (.obj o.extensions))]

/-- `createOutcomeEvent`, `builders.mjs:31–64`. -/
def createOutcomeEvent (rt : Runtime) (o : EventOptions) : Except JsString Members :=
  withObjectDigest rt (eventMembers o)

/-- The arguments of `createEvidenceItem`. -/
structure EvidenceOptions where
  evidenceId : JsString
  evidenceType : JsString
  mediaType : JsString
  sourceClass : JsString
  issuerRef : JsString
  claimScope : List JsString
  contentDigest : Json
  locator : Members
  disclosure : JsString := js "RESTRICTED"
  extensions : Members := []

/-- The members of an evidence item before its digest. -/
def evidenceMembers (o : EvidenceOptions) : Members :=
  [(js "evidence_id", .str o.evidenceId), (js "evidence_type", .str o.evidenceType),
    (js "media_type", .str o.mediaType), (js "source_class", .str o.sourceClass),
    (js "issuer_ref", .str o.issuerRef), (js "claim_scope", clone (.arr (o.claimScope.map .str))),
    (js "content_digest", clone o.contentDigest), (js "locator", clone (.obj o.locator)),
    (js "disclosure", .str o.disclosure), (js "extensions", clone (.obj o.extensions))]

/-- `createEvidenceItem`, `builders.mjs:66–90`. -/
def createEvidenceItem (rt : Runtime) (o : EvidenceOptions) : Except JsString Members :=
  withObjectDigest rt (evidenceMembers o)

/-- The arguments of `createRelationship`. -/
structure RelationshipOptions where
  relationshipId : JsString
  relationshipType : JsString
  fromRef : JsString
  toRef : JsString
  extensions : Members := []

/-- The members of a relationship before its digest. -/
def relationshipMembers (o : RelationshipOptions) : Members :=
  [(js "relationship_id", .str o.relationshipId),
    (js "relationship_type", .str o.relationshipType), (js "from_ref", .str o.fromRef),
    (js "to_ref", .str o.toRef), (js "extensions", clone (.obj o.extensions))]

/-- `createRelationship`, `builders.mjs:92–106`. -/
def createRelationship (rt : Runtime) (o : RelationshipOptions) : Except JsString Members :=
  withObjectDigest rt (relationshipMembers o)

/-- The arguments of `createEvidenceBundle`. -/
structure BundleOptions where
  bundleId : JsString
  actionId : JsString
  createdAt : JsString
  issuers : List Json := []
  events : List Json := []
  evidence : List Json := []
  relationships : List Json := []
  predecessorBundleDigests : List Json := []
  extensions : Members := []
  proofs : List Json := []

/-- The payload of `createEvidenceBundle`. -/
def bundlePayload (o : BundleOptions) : Members :=
  [(js "spec_version", .str (js "0.1")), (js "profile", .str (js "TP-JSON-0.1")),
    (js "bundle_id", .str o.bundleId), (js "action_id", .str o.actionId),
    (js "created_at", .str o.createdAt), (js "issuers", clone (.arr o.issuers)),
    (js "events", clone (.arr o.events)), (js "evidence", clone (.arr o.evidence)),
    (js "relationships", clone (.arr o.relationships)),
    (js "predecessor_bundle_digests", clone (.arr o.predecessorBundleDigests)),
    (js "extensions", clone (.obj o.extensions))]

/-- `createEvidenceBundle`, `builders.mjs:108–137`, at the default version and profile. -/
def createEvidenceBundle (o : BundleOptions) : Members :=
  [(js "payload", .obj (bundlePayload o)), (js "proofs", clone (.arr o.proofs))]

end TimeProofs.Core
