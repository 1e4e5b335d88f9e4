import TimeProofs.Core.Plain

/-!
# Objects as built

When the objects that the builders return are ones of the profile. A builder adds the digest of
what it was given, so the digest always matches; the other conditions are on the options.
-/

namespace TimeProofs.Core

open TimeProofs.Base TimeProofs.Json

/-- Setting a member changes nothing outside it. -/
theorem withoutMember_setMember (ms : Members) (key : JsString) (v : Json) :
    withoutMember (setMember ms key v) key = withoutMember ms key := by
  induction ms with
  | nil => simp [setMember, withoutMember]
  | cons m rest ih =>
    obtain ⟨k, w⟩ := m
    rw [setMember]
    by_cases hk : k = key
    · rw [if_pos hk, withoutMember, withoutMember, List.filter_cons_of_neg (by simp),
        List.filter_cons_of_neg (by simpa using hk)]
    · rw [if_neg hk, withoutMember, withoutMember, List.filter_cons_of_pos (by simpa using hk),
        List.filter_cons_of_pos (by simpa using hk)]
      exact congrArg _ ih

/-- The names after a member has been added. -/
theorem map_fst_setMember_of_not_mem {ms : Members} {key : JsString}
    (h : key ∉ ms.map Prod.fst) (v : Json) :
    (setMember ms key v).map Prod.fst = ms.map Prod.fst ++ [key] := by
  induction ms with
  | nil => rfl
  | cons m rest ih =>
    obtain ⟨k, w⟩ := m
    rw [List.map_cons, List.mem_cons, not_or] at h
    rw [setMember, if_neg (Ne.symm h.1), List.map_cons, ih h.2]
    rfl

theorem encodable_digestObject {hex : JsString} (h : wellFormed hex = true) :
    Encodable (digestObject hex) := by
  rw [digestObject, encodable_obj]
  simp only [List.forall_mem_cons, encodable_str, h, List.not_mem_nil, false_imp_iff,
    implies_true, and_true]
  decide

theorem wellFormed_sha256Hex (rt : Runtime) (bytes : List UInt8) :
    wellFormed (sha256Hex rt bytes) = true := by
  have hpattern := sha256Pattern_sha256Hex rt bytes
  rw [sha256Pattern, Bool.and_eq_true, List.all_eq_true] at hpattern
  apply wellFormed_of_forall
  intro c hc
  exact toNat_isHexLower (hpattern.2 c hc)

/-- A digest is taken of encodable data, and is encodable. -/
theorem encodable_of_digestValue {rt : Runtime} {v digest : Json}
    (h : digestValue rt v = .ok digest) : Encodable v ∧ Encodable digest := by
  obtain ⟨bytes, hbytes, rfl⟩ := map_eq_ok_iff.mp h
  exact ⟨((canonicalizeBytes_eq_ok_iff _).mp hbytes).1,
    encodable_digestObject (wellFormed_sha256Hex rt bytes)⟩

/-- The members after one has been set. -/
theorem mem_setMember {ms : Members} {key : JsString} {v : Json} {m : JsString × Json}
    (h : m ∈ setMember ms key v) : m = (key, v) ∨ m ∈ ms := by
  induction ms with
  | nil => exact .inl (List.mem_singleton.mp h)
  | cons first rest ih =>
    rw [setMember] at h
    split at h
    · exact (List.mem_cons.mp h).imp_right (List.mem_cons_of_mem first)
    · rcases List.mem_cons.mp h with rfl | hrest
      · exact .inr List.mem_cons_self
      · exact (ih hrest).imp_right (List.mem_cons_of_mem first)

theorem encodable_setMember {ms : Members} {key : JsString} {v : Json}
    (h : Encodable (.obj ms)) (hkey : wellFormed key = true) (hv : Encodable v) :
    Encodable (.obj (setMember ms key v)) := by
  rw [encodable_obj] at h ⊢
  intro m hm
  rcases mem_setMember hm with rfl | hm
  · exact ⟨hkey, hv⟩
  · exact h m hm

theorem withoutMember_of_not_mem {ms : Members} {key : JsString} (h : key ∉ ms.map Prod.fst) :
    withoutMember ms key = ms := by
  apply List.filter_eq_self.mpr
  intro m hm
  rw [decide_eq_true_eq]
  intro heq
  exact h (heq ▸ List.mem_map_of_mem hm)

/-- An object as a builder returns it: the clones of the members it was given, and their digest. -/
structure Built (rt : Runtime) (value object : Members) : Prop where
  names : object.map Prod.fst = value.map Prod.fst ++ [js "object_digest"]
  member_eq : ∀ {key : JsString} {v : Json}, key ≠ js "object_digest" →
    member value key = some v → member object key = some (clone v)
  digest : DigestMatches rt object
  encodable : Encodable (.obj object)

/-! ### Built objects -/

theorem isOneOf_str {texts : List JsString} {s : JsString} :
    isOneOf texts (some (.str s)) = true ↔ s ∈ texts := by
  simp [isOneOf_iff]

theorem isNonEmptyString_str {s : JsString} : isNonEmptyString (some (.str s)) = true ↔ s ≠ [] := by
  simp [isNonEmptyString_iff]

theorem ne_nil_of_mem {texts : List JsString} (hall : ∀ text ∈ texts, text ≠ []) {s : JsString}
    (h : s ∈ texts) : s ≠ [] := hall s h

/-- What a pattern matches is not empty when the empty text does not match. -/
theorem ne_nil_of_test {pattern : Regex CodeUnit} {s : JsString} (hnil : pattern.test [] = false)
    (h : pattern.test s = true) : s ≠ [] := by
  rintro rfl
  rw [hnil] at h
  cases h

/-- What reads no more of a value than its kind, and of a string its text, reads the same of the
clone; a number that is not finite becomes null. -/
theorem shallow_clone {α : Type} (f : Option Json → α)
    (hnum : ∀ x, f (some (.num x)) = f (some .null))
    (harr : ∀ xs ys, f (some (.arr xs)) = f (some (.arr ys)))
    (hobj : ∀ ms ns, f (some (.obj ms)) = f (some (.obj ns))) (v : Json) :
    f (some (clone v)) = f (some v) := by
  cases v with
  | num x =>
    rw [clone]
    split
    · rw [hnum, hnum]
    · rw [hnum]
  | arr items =>
    rw [clone]
    exact harr _ items
  | obj ms =>
    rw [clone]
    exact hobj _ ms
  | _ => rw [clone]

theorem isObject_clone (v : Json) : isObject (some (clone v)) = isObject (some v) :=
  shallow_clone isObject (fun _ ↦ rfl) (fun _ _ ↦ rfl) (fun _ _ ↦ rfl) v

section

variable {rt : Runtime} {value object : Members}

/-- The digest of a built object matches. -/
theorem digestMatches_withObjectDigest (h : withObjectDigest rt value = .ok object) :
    DigestMatches rt object := by
  obtain ⟨digest, hdigest, rfl⟩ := map_eq_ok_iff.mp h
  rw [calculateObjectDigest_eq] at hdigest
  obtain ⟨hex, hhash, rfl⟩ := map_eq_ok_iff.mp hdigest
  refine ⟨hex, ?_, ?_⟩
  · rwa [contentHash, withoutMember_setMember]
  · rw [member_setMember, if_pos rfl]
    exact isDigest_digestObject hex

theorem withObjectDigest_built (h : withObjectDigest rt value = .ok object)
    (hnot : js "object_digest" ∉ value.map Prod.fst) : Built rt value object where
  names := by
    obtain ⟨digest, -, rfl⟩ := map_eq_ok_iff.mp h
    rw [← map_fst_cloneMembers] at hnot
    rw [map_fst_setMember_of_not_mem hnot, map_fst_cloneMembers]
  member_eq := by
    intro key v hne hv
    rw [member_withObjectDigest h hne, hv]
    rfl
  digest := digestMatches_withObjectDigest h
  encodable := by
    obtain ⟨digest, hdigest, rfl⟩ := map_eq_ok_iff.mp h
    rw [← map_fst_cloneMembers] at hnot
    rw [calculateObjectDigest, withoutMember_of_not_mem hnot] at hdigest
    obtain ⟨hmembers, hencodable⟩ := encodable_of_digestValue hdigest
    exact encodable_setMember hmembers (by decide) hencodable

/-- A text of a built object is the one it was given. -/
theorem Built.get_str (h : Built rt value object) {key s : JsString}
    (hne : key ≠ js "object_digest") (hv : member value key = some (.str s)) :
    get (some (.obj object)) key = some (.str s) := by
  rw [get, h.member_eq hne hv, clone_str]

theorem Built.exactKeys (h : Built rt value object) {names : List JsString}
    (hnames : value.map Prod.fst ++ [js "object_digest"] = names) :
    exactKeys (some (.obj object)) names = true := by
  rw [exactKeys_iff]
  exact ⟨object, rfl, by rw [h.names, hnames]⟩

end

/-- Options of a relationship of the profile. -/
structure RelationshipOptions.Ok (o : RelationshipOptions) : Prop where
  relationshipId : o.relationshipId ≠ []
  relationshipType : o.relationshipType ∈ relationshipTypes
  fromRef : relationshipRefPattern.test o.fromRef = true
  toRef : relationshipRefPattern.test o.toRef = true
  distinct : o.fromRef ≠ o.toRef
  vocabulary : validateRelationshipVocabulary o.relationshipType (some (.str o.fromRef))
    (some (.str o.toRef)) = []

section

variable {rt : Runtime} {o : RelationshipOptions} {relationship : Members}

theorem createRelationship_built (h : createRelationship rt o = .ok relationship) :
    Built rt (relationshipMembers o) relationship := by
  apply withObjectDigest_built h
  have hnames : (relationshipMembers o).map Prod.fst = relationshipKeys.take 5 := rfl
  rw [hnames]
  decide

/-- A built relationship is one of the profile exactly when its options are. -/
theorem createRelationship_ok_iff (h : createRelationship rt o = .ok relationship) :
    RelationshipOk rt (.obj relationship) ↔ o.Ok := by
  have hbuilt := createRelationship_built h
  have hid : get (some (.obj relationship)) (js "relationship_id") =
      some (.str o.relationshipId) := hbuilt.get_str (by decide) rfl
  have htype : get (some (.obj relationship)) (js "relationship_type") =
      some (.str o.relationshipType) := hbuilt.get_str (by decide) rfl
  have hfrom : get (some (.obj relationship)) (js "from_ref") = some (.str o.fromRef) :=
    hbuilt.get_str (by decide) rfl
  have hto : get (some (.obj relationship)) (js "to_ref") = some (.str o.toRef) :=
    hbuilt.get_str (by decide) rfl
  have hextensions : get (some (.obj relationship)) (js "extensions") =
      some (clone (clone (.obj o.extensions))) := hbuilt.member_eq (by decide) rfl
  constructor
  · intro hok
    have hrefs := hok.refs
    simp only [List.forall_mem_cons, hfrom, hto, stringOf] at hrefs
    have hdistinct := hok.distinct
    rw [hfrom, hto] at hdistinct
    have hvocabulary := hok.vocabulary
    rw [htype, hfrom, hto] at hvocabulary
    constructor
    · exact isNonEmptyString_str.mp (hid ▸ hok.texts "relationship_id" (by decide))
    · exact isOneOf_str.mp (htype ▸ hok.relationshipType)
    · exact hrefs.1
    · exact hrefs.2.1
    · intro heq
      exact hdistinct (by rw [heq])
    · exact hvocabulary
  · intro hok
    have htypeText : o.relationshipType ≠ [] := ne_nil_of_mem (by decide) hok.relationshipType
    have hrefText {ref : JsString} (hpattern : relationshipRefPattern.test ref = true) : ref ≠ [] :=
      ne_nil_of_test (by decide) hpattern
    constructor
    · exact hbuilt.exactKeys rfl
    · simp only [relationshipTextMembers, List.forall_mem_cons, hid, htype, hfrom, hto,
        isNonEmptyString_str]
      exact ⟨hok.relationshipId, htypeText, hrefText hok.fromRef,
        hrefText hok.toRef, List.forall_mem_nil _⟩
    · rw [htype, isOneOf_str]
      exact hok.relationshipType
    · simp only [List.forall_mem_cons, hfrom, hto, stringOf]
      exact ⟨hok.fromRef, hok.toRef, List.forall_mem_nil _⟩
    · rw [hfrom, hto]
      intro heq
      exact hok.distinct (Json.str.inj (Option.some.inj heq))
    · rw [htype, hfrom, hto]
      exact hok.vocabulary
    · rw [hextensions, isObject_clone, isObject_clone]
      rfl
    · exact hbuilt.digest

end

/-- Options of an event of the profile, whose issuer is one of the given ones. -/
structure EventOptions.Ok (rt : Runtime) (issuerIds : List JsString) (o : EventOptions) : Prop where
  eventId : o.eventId ≠ []
  phase : o.phase ∈ phases
  eventType : eventTypePattern.test o.eventType = true
  status : o.status ∈ statuses
  sourceClass : o.sourceClass ∈ sourceClasses
  occurredAt : validUtcTimestamp (some o.occurredAt) = true
  recordedAt : validTimestampText o.recordedAt = true
  recordedAfter : 0 ≤ compareTimestamps (some (.str o.recordedAt)) (some o.occurredAt)
  issuerRef : o.issuerRef ∈ issuerIds ∧ o.issuerRef ≠ []
  parents : ∃ texts,
    collect ((o.parentEventDigests.map clone).map (digestKey rt)) = .ok texts ∧ texts.Nodup
  evidenceRefs : o.evidenceRefs.Nodup
  actor : EntityOk (some (clone o.actor))
  subject : EntityOk (some (clone o.subject))
  claim : isObject (some o.claim) = true
  vocabulary : validateEventVocabulary (some (.str o.eventType)) o.eventType o.phase o.status
    o.sourceClass = .ok []

theorem validUtcTimestamp_clone (v : Json) :
    validUtcTimestamp (some (clone v)) = validUtcTimestamp (some v) :=
  shallow_clone validUtcTimestamp (fun _ ↦ rfl) (fun _ _ ↦ rfl) (fun _ _ ↦ rfl) v

theorem compareTimestamps_clone (recorded : Option Json) (v : Json) :
    compareTimestamps recorded (some (clone v)) = compareTimestamps recorded (some v) :=
  shallow_clone (compareTimestamps recorded) (fun _ ↦ rfl) (fun _ _ ↦ rfl) (fun _ _ ↦ rfl) v

theorem isNonEmptyString_of_validUtcTimestamp {v : Option Json} (h : validUtcTimestamp v = true) :
    isNonEmptyString v = true := by
  obtain ⟨s, rfl, hvalid⟩ := validUtcTimestamp_iff.mp h
  rw [isNonEmptyString_str]
  rintro rfl
  cases hvalid

theorem map_clone_str (texts : List JsString) :
    (texts.map Json.str).map clone = texts.map Json.str := by
  rw [List.map_map]
  apply List.map_congr_left
  intro s _
  exact clone_str s

section

variable {rt : Runtime} {o : EventOptions} {event : Members}

theorem createOutcomeEvent_built (h : createOutcomeEvent rt o = .ok event) :
    Built rt (eventMembers o) event := by
  apply withObjectDigest_built h
  have hnames : (eventMembers o).map Prod.fst = eventKeys.take 14 := rfl
  rw [hnames]
  decide

/-- A built event is one of the profile exactly when its options are. -/
theorem createOutcomeEvent_ok_iff {issuerIds : List JsString}
    (h : createOutcomeEvent rt o = .ok event) :
    EventOk rt issuerIds (.obj event) ↔ o.Ok rt issuerIds := by
  have hbuilt := createOutcomeEvent_built h
  have hid : get (some (.obj event)) (js "event_id") = some (.str o.eventId) :=
    hbuilt.get_str (by decide) rfl
  have hphase : get (some (.obj event)) (js "phase") = some (.str o.phase) :=
    hbuilt.get_str (by decide) rfl
  have htype : get (some (.obj event)) (js "event_type") = some (.str o.eventType) :=
    hbuilt.get_str (by decide) rfl
  have hstatus : get (some (.obj event)) (js "status") = some (.str o.status) :=
    hbuilt.get_str (by decide) rfl
  have hoccurred : get (some (.obj event)) (js "occurred_at") = some (clone o.occurredAt) :=
    hbuilt.member_eq (by decide) rfl
  have hrecorded : get (some (.obj event)) (js "recorded_at") = some (.str o.recordedAt) :=
    hbuilt.get_str (by decide) rfl
  have hsource : get (some (.obj event)) (js "source_class") = some (.str o.sourceClass) :=
    hbuilt.get_str (by decide) rfl
  have hissuer : get (some (.obj event)) (js "issuer_ref") = some (.str o.issuerRef) :=
    hbuilt.get_str (by decide) rfl
  have hactor : get (some (.obj event)) (js "actor") = some (clone o.actor) :=
    (hbuilt.member_eq (by decide) rfl).trans (by rw [clone_clone])
  have hsubject : get (some (.obj event)) (js "subject") = some (clone o.subject) :=
    (hbuilt.member_eq (by decide) rfl).trans (by rw [clone_clone])
  have hclaim : get (some (.obj event)) (js "claim") = some (clone o.claim) :=
    (hbuilt.member_eq (by decide) rfl).trans (by rw [clone_clone])
  have hrefs : get (some (.obj event)) (js "evidence_refs") =
      some (.arr (o.evidenceRefs.map .str)) :=
    (hbuilt.member_eq (by decide) rfl).trans (by rw [clone_clone, clone_arr, map_clone_str])
  have hparents : get (some (.obj event)) (js "parent_event_digests") =
      some (.arr (o.parentEventDigests.map clone)) :=
    (hbuilt.member_eq (by decide) rfl).trans (by rw [clone_clone, clone_arr])
  have hextensions : get (some (.obj event)) (js "extensions") =
      some (clone (.obj o.extensions)) :=
    (hbuilt.member_eq (by decide) rfl).trans (by rw [clone_clone])
  constructor
  · intro hok
    have hvocabulary := hok.vocabulary
    simp only [VocabularyOk, hphase, htype, hstatus, hsource, stringOf] at hvocabulary
    have htypePattern := hok.eventType
    rw [htype, stringOf] at htypePattern
    obtain ⟨parents, hparents', hdistinct⟩ := hok.parents
    rw [hparents] at hparents'
    cases hparents'
    obtain ⟨refs, hrefs', hrepeats⟩ := hok.evidenceRefs
    rw [hrefs] at hrefs'
    cases hrefs'
    rw [List.map_map] at hrepeats
    exact
      { eventId := isNonEmptyString_str.mp (hid ▸ hok.texts "event_id" (by decide))
        phase := isOneOf_str.mp (hphase ▸ hok.phase)
        eventType := htypePattern
        status := isOneOf_str.mp (hstatus ▸ hok.status)
        sourceClass := isOneOf_str.mp (hsource ▸ hok.sourceClass)
        occurredAt := by
          rw [← validUtcTimestamp_clone, ← hoccurred]
          exact hok.occurredAt
        recordedAt := by
          have hvalid := hok.recordedAt
          rwa [hrecorded] at hvalid
        recordedAfter := by
          rw [← compareTimestamps_clone, ← hoccurred, ← hrecorded]
          exact hok.recordedAfter
        issuerRef := ⟨isOneOf_str.mp (hissuer ▸ hok.issuerRef),
          isNonEmptyString_str.mp (hissuer ▸ hok.texts "issuer_ref" (by decide))⟩
        parents := hdistinct
        evidenceRefs := repeatsValue_str.mp hrepeats
        actor := hactor ▸ hok.actor
        subject := hsubject ▸ hok.subject
        claim := by
          rw [← isObject_clone, ← hclaim]
          exact hok.claim
        vocabulary := hvocabulary }
  · intro hok
    have hne {texts : List JsString} (hall : ∀ text ∈ texts, text ≠ []) {s : JsString}
        (hs : s ∈ texts) : isNonEmptyString (some (.str s)) = true :=
      isNonEmptyString_str.mpr (ne_nil_of_mem hall hs)
    have htypeText : o.eventType ≠ [] := ne_nil_of_test (by decide) hok.eventType
    constructor
    case keys => exact hbuilt.exactKeys rfl
    case texts =>
      simp only [eventTextMembers, List.forall_mem_cons, hid, hphase, htype, hstatus, hoccurred,
        hrecorded, hsource, hissuer]
      refine ⟨isNonEmptyString_str.mpr hok.eventId, hne (by decide) hok.phase,
        isNonEmptyString_str.mpr htypeText, hne (by decide) hok.status, ?_, ?_,
        hne (by decide) hok.sourceClass, isNonEmptyString_str.mpr hok.issuerRef.2,
        List.forall_mem_nil _⟩
      · apply isNonEmptyString_of_validUtcTimestamp
        rw [validUtcTimestamp_clone]
        exact hok.occurredAt
      · exact isNonEmptyString_of_validUtcTimestamp hok.recordedAt
    case phase =>
      rw [hphase, isOneOf_str]
      exact hok.phase
    case eventType =>
      rw [htype]
      exact hok.eventType
    case status =>
      rw [hstatus, isOneOf_str]
      exact hok.status
    case sourceClass =>
      rw [hsource, isOneOf_str]
      exact hok.sourceClass
    case occurredAt =>
      rw [hoccurred, validUtcTimestamp_clone]
      exact hok.occurredAt
    case recordedAt =>
      rw [hrecorded]
      exact hok.recordedAt
    case recordedAfter =>
      rw [hrecorded, hoccurred, compareTimestamps_clone]
      exact hok.recordedAfter
    case issuerRef =>
      rw [hissuer, isOneOf_str]
      exact hok.issuerRef.1
    case parents => exact ⟨_, hparents, hok.parents⟩
    case evidenceRefs =>
      refine ⟨_, hrefs, ?_⟩
      rw [List.map_map]
      exact repeatsValue_str.mpr hok.evidenceRefs
    case actor => exact hactor ▸ hok.actor
    case subject => exact hsubject ▸ hok.subject
    case claim =>
      rw [hclaim, isObject_clone]
      exact hok.claim
    case extensions =>
      rw [hextensions, isObject_clone]
      rfl
    case vocabulary =>
      simp only [VocabularyOk, hphase, htype, hstatus, hsource, stringOf]
      exact hok.vocabulary
    case digest => exact hbuilt.digest

end

/-- Options of an evidence item of the profile, whose issuer is one of the given ones. -/
structure EvidenceOptions.Ok (rt : Runtime) (issuerIds : List JsString) (o : EvidenceOptions) :
    Prop where
  evidenceId : o.evidenceId ≠ []
  evidenceType : evidenceTypePattern.test o.evidenceType = true
  mediaType : mediaTypePattern.test o.mediaType = true
  sourceClass : o.sourceClass ∈ sourceClasses
  issuerRef : o.issuerRef ∈ issuerIds ∧ o.issuerRef ≠ []
  contentDigest : validDigest (some (clone o.contentDigest)) = true
  locator : LocatorOk rt (some (clone (.obj o.locator)))
  claimScope : o.claimScope ≠ [] ∧ o.claimScope.Nodup ∧
    ∀ eventType ∈ o.claimScope, eventTypePattern.test eventType = true
  disclosure : o.disclosure ∈ disclosures

section

variable {rt : Runtime} {o : EvidenceOptions} {evidence : Members}

theorem createEvidenceItem_built (h : createEvidenceItem rt o = .ok evidence) :
    Built rt (evidenceMembers o) evidence := by
  apply withObjectDigest_built h
  have hnames : (evidenceMembers o).map Prod.fst = evidenceKeys.take 10 := rfl
  rw [hnames]
  decide

/-- A scope of texts is one of the profile when they are distinct event types. -/
theorem scopeOk_iff {scope : List JsString} :
    ScopeOk (some (.arr (scope.map .str))) ↔ scope ≠ [] ∧ scope.Nodup ∧
      ∀ eventType ∈ scope, eventTypePattern.test eventType = true := by
  constructor
  · intro h
    have hdistinct := h.distinct
    rw [itemsOf, List.map_map] at hdistinct
    refine ⟨?_, repeatsValue_str.mp hdistinct, fun eventType hmem ↦ ?_⟩
    · rintro rfl
      exact h.nonempty rfl
    · exact h.types _ (List.mem_map_of_mem hmem)
  · rintro ⟨hne, hnodup, htypes⟩
    constructor
    · rfl
    · simpa [itemsOf] using hne
    · intro item hitem
      obtain ⟨eventType, hmem, rfl⟩ := List.mem_map.mp hitem
      exact htypes eventType hmem
    · rw [itemsOf, List.map_map]
      exact repeatsValue_str.mpr hnodup

/-- A built evidence item is one of the profile exactly when its options are. -/
theorem createEvidenceItem_ok_iff {issuerIds : List JsString}
    (h : createEvidenceItem rt o = .ok evidence) :
    EvidenceOk rt issuerIds (.obj evidence) ↔ o.Ok rt issuerIds := by
  have hbuilt := createEvidenceItem_built h
  have hid : get (some (.obj evidence)) (js "evidence_id") = some (.str o.evidenceId) :=
    hbuilt.get_str (by decide) rfl
  have htype : get (some (.obj evidence)) (js "evidence_type") = some (.str o.evidenceType) :=
    hbuilt.get_str (by decide) rfl
  have hmedia : get (some (.obj evidence)) (js "media_type") = some (.str o.mediaType) :=
    hbuilt.get_str (by decide) rfl
  have hsource : get (some (.obj evidence)) (js "source_class") = some (.str o.sourceClass) :=
    hbuilt.get_str (by decide) rfl
  have hissuer : get (some (.obj evidence)) (js "issuer_ref") = some (.str o.issuerRef) :=
    hbuilt.get_str (by decide) rfl
  have hdisclosure : get (some (.obj evidence)) (js "disclosure") = some (.str o.disclosure) :=
    hbuilt.get_str (by decide) rfl
  have hscope : get (some (.obj evidence)) (js "claim_scope") =
      some (.arr (o.claimScope.map .str)) :=
    (hbuilt.member_eq (by decide) rfl).trans (by rw [clone_clone, clone_arr, map_clone_str])
  have hcontent : get (some (.obj evidence)) (js "content_digest") =
      some (clone o.contentDigest) :=
    (hbuilt.member_eq (by decide) rfl).trans (by rw [clone_clone])
  have hlocator : get (some (.obj evidence)) (js "locator") = some (clone (.obj o.locator)) :=
    (hbuilt.member_eq (by decide) rfl).trans (by rw [clone_clone])
  have hextensions : get (some (.obj evidence)) (js "extensions") =
      some (clone (.obj o.extensions)) :=
    (hbuilt.member_eq (by decide) rfl).trans (by rw [clone_clone])
  constructor
  · intro hok
    have htypePattern := hok.evidenceType
    rw [htype, stringOf] at htypePattern
    have hmediaPattern := hok.mediaType
    rw [hmedia, stringOf] at hmediaPattern
    exact
      { evidenceId := isNonEmptyString_str.mp (hid ▸ hok.texts "evidence_id" (by decide))
        evidenceType := htypePattern
        mediaType := hmediaPattern
        sourceClass := isOneOf_str.mp (hsource ▸ hok.sourceClass)
        issuerRef := ⟨isOneOf_str.mp (hissuer ▸ hok.issuerRef),
          isNonEmptyString_str.mp (hissuer ▸ hok.texts "issuer_ref" (by decide))⟩
        contentDigest := hcontent ▸ hok.contentDigest
        locator := hlocator ▸ hok.locator
        claimScope := scopeOk_iff.mp (hscope ▸ hok.claimScope)
        disclosure := isOneOf_str.mp (hdisclosure ▸ hok.disclosure) }
  · intro hok
    have htypeText : o.evidenceType ≠ [] := ne_nil_of_test (by decide) hok.evidenceType
    have hmediaText : o.mediaType ≠ [] := ne_nil_of_test (by decide) hok.mediaType
    have hsourceText : o.sourceClass ≠ [] := ne_nil_of_mem (by decide) hok.sourceClass
    have hdisclosureText : o.disclosure ≠ [] := ne_nil_of_mem (by decide) hok.disclosure
    constructor
    case keys => exact hbuilt.exactKeys rfl
    case texts =>
      simp only [evidenceTextMembers, List.forall_mem_cons, hid, htype, hmedia, hsource, hissuer,
        hdisclosure, isNonEmptyString_str]
      exact ⟨hok.evidenceId, htypeText, hmediaText, hsourceText, hok.issuerRef.2,
        hdisclosureText, List.forall_mem_nil _⟩
    case evidenceType =>
      rw [htype]
      exact hok.evidenceType
    case mediaType =>
      rw [hmedia]
      exact hok.mediaType
    case sourceClass =>
      rw [hsource, isOneOf_str]
      exact hok.sourceClass
    case issuerRef =>
      rw [hissuer, isOneOf_str]
      exact hok.issuerRef.1
    case contentDigest => exact hcontent ▸ hok.contentDigest
    case locator => exact hlocator ▸ hok.locator
    case claimScope => exact hscope ▸ scopeOk_iff.mpr hok.claimScope
    case disclosure =>
      rw [hdisclosure, isOneOf_str]
      exact hok.disclosure
    case extensions =>
      rw [hextensions, isObject_clone]
      rfl
    case digest => exact hbuilt.digest

end

/-- A clone is encodable exactly when its texts are well formed. -/
theorem encodable_clone_iff {v : Json} : Encodable (clone v) ↔ v.WellFormedText := by
  refine ⟨fun h ↦ ?_, encodable_clone⟩
  induction v using Json.induct with
  | null => simp [Json.WellFormedText, Json.All]
  | bool b => simp [Json.WellFormedText, Json.All]
  | num x => simp [Json.WellFormedText, Json.All]
  | str s =>
    rw [clone_str, encodable_str] at h
    exact h
  | arr items ih =>
    rw [clone_arr, encodable_arr, List.forall_mem_map] at h
    rw [Json.WellFormedText, Json.all_arr]
    intro v hv
    exact ih v hv (h v hv)
  | obj members ih =>
    rw [clone_obj, encodable_obj, List.forall_mem_map] at h
    rw [Json.WellFormedText, Json.all_obj, List.forall_mem_map]
    exact ⟨fun m hm ↦ (h m hm).1, fun m hm ↦ ih m hm (h m hm).2⟩

/-- The texts of encodable data are well formed. -/
theorem wellFormedText_of_encodable {v : Json} (h : Encodable v) : v.WellFormedText :=
  Json.All.imp (fun _ hs ↦ hs) (fun _ _ ↦ trivial) (fun _ hks ↦ hks) h

theorem wellFormedText_str {s : JsString} : (Json.str s).WellFormedText ↔ wellFormed s = true := by
  rw [Json.WellFormedText, Json.All]

theorem wellFormedText_obj_iff {ms : Members} : (Json.obj ms).WellFormedText ↔
    ∀ m ∈ ms, wellFormed m.1 = true ∧ m.2.WellFormedText := by
  rw [Json.WellFormedText, Json.all_obj, List.forall_mem_map, forall₂_and]

theorem wellFormedText_arr_iff {items : List Json} :
    (Json.arr items).WellFormedText ↔ ∀ v ∈ items, v.WellFormedText := Json.all_arr items

/-- The payload of a built bundle is encodable exactly when its parts are well formed. -/
theorem encodable_bundlePayload_iff {o : BundleOptions} :
    Encodable (.obj (bundlePayload o)) ↔
      wellFormed o.bundleId = true ∧ wellFormed o.actionId = true ∧
      wellFormed o.createdAt = true ∧ (∀ v ∈ o.issuers, v.WellFormedText) ∧
      (∀ v ∈ o.events, v.WellFormedText) ∧ (∀ v ∈ o.evidence, v.WellFormedText) ∧
      (∀ v ∈ o.relationships, v.WellFormedText) ∧
      (∀ v ∈ o.predecessorBundleDigests, v.WellFormedText) ∧
      (Json.obj o.extensions).WellFormedText := by
  have hnames : ∀ key ∈ (bundlePayload o).map Prod.fst, wellFormed key = true := by
    have hkeys : (bundlePayload o).map Prod.fst = payloadKeys := rfl
    rw [hkeys]
    decide
  have htexts : wellFormed (js "0.1") = true ∧ wellFormed (js "TP-JSON-0.1") = true := by decide
  rw [Json.Encodable, Json.all_obj, and_iff_right hnames]
  change (∀ m ∈ bundlePayload o, Encodable m.2) ↔ _
  rw [bundlePayload]
  simp only [List.forall_mem_cons, encodable_str, encodable_clone_iff, wellFormedText_arr_iff,
    htexts, List.not_mem_nil, false_imp_iff, implies_true, and_true, true_and]

section

variable {rt : Runtime} {o : BundleOptions}

theorem payload_createEvidenceBundle (o : BundleOptions) :
    membersOf (member (createEvidenceBundle o) (js "payload")) = bundlePayload o := rfl

theorem envelopeOk_createEvidenceBundle (o : BundleOptions) :
    EnvelopeOk (.obj (createEvidenceBundle o)) where
  keys := rfl
  payload := rfl
  proofs := by
    have hproofs : get (some (.obj (createEvidenceBundle o))) (js "proofs") =
        some (clone (.arr o.proofs)) := rfl
    rw [hproofs, clone_arr]
    rfl

/-- The payload of a built bundle is one of the profile when it has ids and a time. -/
theorem payloadOk_bundlePayload_iff :
    PayloadOk (bundlePayload o) ↔
      o.bundleId ≠ [] ∧ o.actionId ≠ [] ∧ validTimestampText o.createdAt = true := by
  constructor
  · intro h
    exact ⟨isNonEmptyString_str.mp h.bundleId, isNonEmptyString_str.mp h.actionId, h.createdAt⟩
  · rintro ⟨hbundle, haction, hcreated⟩
    have harray {key : JsString} {items : List Json}
        (hkey : member (bundlePayload o) key = some (clone (.arr items))) :
        isArray (member (bundlePayload o) key) = true := by
      rw [hkey, clone_arr]
      rfl
    exact
      { keys := rfl
        specVersion := rfl
        profile := rfl
        bundleId := isNonEmptyString_str.mpr hbundle
        actionId := isNonEmptyString_str.mpr haction
        createdAt := hcreated
        arrays := by
          simp only [payloadArrays, List.forall_mem_cons]
          exact ⟨harray rfl, harray rfl, harray rfl, harray rfl, harray rfl, List.forall_mem_nil _⟩
        extensions := by
          have hget : member (bundlePayload o) (js "extensions") =
              some (clone (.obj o.extensions)) := rfl
          rw [hget, isObject_clone]
          rfl }

end

end TimeProofs.Core
