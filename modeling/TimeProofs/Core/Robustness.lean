import TimeProofs.Core.Integrity

/-!
# Which texts the verifier survives

The verifier goes on after it has recorded a type error, so ill-typed values reach string
coercions, iterations and first-match lookups. Objects of the strict parser have no prototype,
and coercing one throws. Each check here is given the exact condition under which it returns.
-/

namespace TimeProofs.Core

open TimeProofs.Base TimeProofs.Json

/-- A value that can be coerced to a string when objects have no prototype: it holds no object
at any depth. -/
def Coercible : Option Json → Prop
  | none => True
  | some v => v.All (fun _ ↦ True) (fun _ ↦ True) (fun _ ↦ False)

variable {rt : Runtime}

theorem returns_error {α : Type} {thrown : Thrown} :
    Returns (.error thrown : Except Thrown α) ↔ False :=
  iff_of_false (not_returns_error thrown) id

theorem returns_pure {α : Type} (a : α) : Returns (.ok a : Except Thrown α) ↔ True :=
  iff_of_true (returns_ok a) trivial

theorem elementTexts_eq_map (items : List Json) :
    elementTexts rt items = items.map fun v ↦
      match v with
        | .null => .ok []
        | v => toText rt v := by
  induction items with
  | nil => rfl
  | cons v rest ih => cases v <;> simp [elementTexts, ih]

theorem returns_toText (v : Json) :
    Returns (toText rt.withoutPrototypes v) ↔ Coercible (some v) := by
  induction v using Json.induct with
  | null => simp [toText, returns_pure, Coercible, Json.All]
  | bool b => simp [toText, returns_pure, Coercible, Json.All]
  | num x => simp [toText, returns_pure, Coercible, Json.All]
  | str s => simp [toText, returns_pure, Coercible, Json.All]
  | arr items ih =>
    rw [toText, returns_map, returns_collect, elementTexts_eq_map, List.forall_mem_map,
      Coercible, Json.all_arr]
    apply forall₂_congr
    intro v hv
    cases v with
    | null => simp [returns_pure, Json.All]
    | _ => exact ih _ hv
  | obj members ih =>
    rw [Coercible, Json.all_obj]
    simp [toText, Runtime.withoutPrototypes, returns_error]

theorem returns_textOf (rt : Runtime) (v : Option Json) :
    Returns (textOf rt.withoutPrototypes v) ↔ Coercible v := by
  cases v with
  | none => simp [textOf, returns_pure, Coercible]
  | some v => exact returns_toText v

theorem returns_textOrEmpty (rt : Runtime) (v : Option Json) :
    Returns (textOrEmpty rt.withoutPrototypes v) ↔ Coercible v := by
  unfold textOrEmpty
  split
  · simp [returns_pure, Coercible]
  · simp [returns_pure, Coercible, Json.All]
  · exact returns_toText _

/-- Two texts of members of one object. -/
theorem returns_twoTexts {v w : Option Json} (join : JsString → JsString → JsString) :
    Returns (do
      let left ← textOf rt.withoutPrototypes v
      let right ← textOf rt.withoutPrototypes w
      Except.ok (join left right)) ↔ Coercible v ∧ Coercible w := by
  rw [← returns_textOf rt, ← returns_textOf rt]
  cases textOf rt.withoutPrototypes v <;> cases textOf rt.withoutPrototypes w <;>
    simp [bind, Except.bind, returns_error, returns_pure]

theorem returns_repeatedTexts {texts : List (Except Thrown JsString)} {code : ErrorCode}
    {message : String} {path : JsString} :
    Returns (repeatedTexts texts code message path) ↔ ∀ r ∈ texts, Returns r := by
  rw [← returns_collect, repeatedTexts]
  cases collect texts <;> simp [returns_error, returns_pure, flag]

theorem returns_requirePattern {pattern : Regex CodeUnit} {v : Option Json} {code : ErrorCode}
    {message : String} {path : JsString} :
    Returns (requirePattern rt.withoutPrototypes pattern v code message path) ↔ Coercible v := by
  rw [← returns_textOrEmpty rt, requirePattern]
  cases textOrEmpty rt.withoutPrototypes v <;> simp [returns_error, returns_pure, flag]

@[simp] theorem returns_flag {condition : Bool} {code : ErrorCode} {message : String}
    {path : JsString} : Returns (flag condition code message path) := returns_ok _

@[simp] theorem returns_requireText {members : Members} {name : String} {code : ErrorCode}
    {message : String} {path : JsString} :
    Returns (requireText members name code message path) := returns_ok _

@[simp] theorem returns_requireObject {members : Members} {name : String} {code : ErrorCode}
    {message : String} {path : JsString} :
    Returns (requireObject members name code message path) := returns_ok _

/-- The texts that compare a digest with other digests exist. -/
structure DigestSafe (digest : Json) : Prop where
  algorithm : Coercible (get (some digest) (js "algorithm"))
  value : Coercible (get (some digest) (js "value"))

theorem returns_digestKey (digest : Json) :
    Returns (digestKey rt.withoutPrototypes digest) ↔ DigestSafe digest :=
  (returns_twoTexts _).trans ⟨fun h ↦ ⟨h.1, h.2⟩, fun h ↦ ⟨h.1, h.2⟩⟩

/-- The texts that compare an identifier with the other identifiers of its issuer exist. -/
structure IdentifierSafe (identifier : Json) : Prop where
  scheme : Coercible (get (some identifier) (js "scheme"))
  value : Coercible (get (some identifier) (js "value"))

theorem returns_identifierKey (identifier : Json) :
    Returns (identifierKey rt.withoutPrototypes identifier) ↔ IdentifierSafe identifier :=
  (returns_twoTexts _).trans ⟨fun h ↦ ⟨h.1, h.2⟩, fun h ↦ ⟨h.1, h.2⟩⟩

theorem identifierSafe_of_not_object {identifier : Json} (h : isObject (some identifier) = false) :
    IdentifierSafe identifier := by
  cases identifier with
  | obj members => cases h
  | _ => exact ⟨trivial, trivial⟩

theorem returns_verifyIdentifiers {identifiers : Option Json} {path : JsString} :
    Returns (verifyIdentifiers rt.withoutPrototypes identifiers path) ↔
      ∀ identifier ∈ itemsOf identifiers, IdentifierSafe identifier := by
  unfold verifyIdentifiers
  split
  · next identifiers =>
    have hshape (index : Nat) (identifier : Json) :
        Returns (verifyIdentifier path index identifier) ↔ True := by
      unfold verifyIdentifier
      cases identifier <;> simp
    rw [Check.returns_both, Check.returns_each hshape, returns_repeatedTexts,
      List.forall_mem_map]
    simp only [implies_true, true_and, itemsOf, List.mem_filter, and_imp, returns_identifierKey]
    apply forall₂_congr
    intro identifier _
    cases hobj : isObject (some identifier) with
    | false => simp [identifierSafe_of_not_object hobj]
    | true => simp
  · next h =>
    have hitems : itemsOf identifiers = [] := by
      unfold itemsOf
      split
      · next items => exact absurd rfl (h items)
      · rfl
    simp [hitems]

theorem returns_verifyKeys {keys : Option Json} {path : JsString} :
    Returns (verifyKeys keys path) := by
  unfold verifyKeys
  split
  · have hshape (index : Nat) (key : Json) : Returns (verifyKey path index key) ↔ True := by
      unfold verifyKey
      cases key <;> simp
    rw [Check.returns_both, Check.returns_each hshape]
    simp
  · simp

/-- What the verifier coerces of an issuer. -/
structure IssuerSafe (issuer : Json) : Prop where
  id : Coercible (get (some issuer) (js "issuer_id"))
  identifiers : ∀ identifier ∈ itemsOf (get (some issuer) (js "identifiers")),
    IdentifierSafe identifier

theorem returns_verifyIssuer {issuer : Json} {path : JsString} :
    Returns (verifyIssuer rt.withoutPrototypes issuer path) ↔
      ∀ identifier ∈ itemsOf (get (some issuer) (js "identifiers")),
        IdentifierSafe identifier := by
  cases issuer with
  | obj members => simp [verifyIssuer, returns_verifyIdentifiers, returns_verifyKeys, Core.get]
  | _ => simp [verifyIssuer, Core.get, itemsOf]

theorem returns_verifyEntityRef {entity : Option Json} {path : JsString} {errorCode : ErrorCode} :
    Returns (verifyEntityRef entity path errorCode) := by
  unfold verifyEntityRef
  split <;> simp

theorem returns_verifyObjectDigest {object : Members} {path : JsString} :
    Returns (verifyObjectDigest rt object path) := by
  unfold verifyObjectDigest
  split
  · simp
  · split
    · exact returns_ok _
    · simp

/-- An event type that the verifier can look up without a string method: a string, or a value
that reads as a registered type. -/
def TypeReadable (rt : Runtime) (eventType : Option Json) : Prop :=
  ∀ text, textOrEmpty rt eventType = .ok text → eventTypePattern.test text = true →
    isString eventType = true ∨ (ruleOf text).isSome = true

/-- The members that come before the vocabulary rules are of their vocabularies. -/
def VocabularyReached (event : Json) : Prop :=
  isOneOf phases (get (some event) (js "phase")) = true ∧
    isOneOf statuses (get (some event) (js "status")) = true ∧
    isOneOf sourceClasses (get (some event) (js "source_class")) = true

theorem returns_validateEventVocabulary (eventType : Option Json)
    (typeText phase status sourceClass : JsString) :
    Returns (validateEventVocabulary eventType typeText phase status sourceClass) ↔
      isString eventType = true ∨ (ruleOf typeText).isSome = true := by
  unfold validateEventVocabulary
  cases hr : ruleOf typeText with
  | some rule => simp [returns_pure]
  | none =>
    cases hs : isString eventType with
    | true =>
      obtain ⟨s, rfl⟩ := isString_iff.mp hs
      dsimp only [startsWithReservedNamespace]
      split
      · contradiction
      · simp [returns_pure]
      · split <;> simp [returns_pure]
    | false =>
      have hstart : startsWithReservedNamespace eventType = .error .notAFunction := by
        unfold startsWithReservedNamespace
        split
        · cases hs
        · rfl
      simp [hstart, returns_error]

theorem returns_verifyEventVocabulary {members : Members} {path : JsString}
    (htype : Coercible (member members (js "event_type"))) :
    Returns (verifyEventVocabulary rt.withoutPrototypes members path) ↔
      (VocabularyReached (.obj members) →
        TypeReadable rt.withoutPrototypes (member members (js "event_type"))) := by
  obtain ⟨text, htext⟩ := (returns_textOrEmpty rt _).mpr htype
  unfold verifyEventVocabulary TypeReadable VocabularyReached
  simp only [Core.get, htext, Bool.and_eq_true]
  by_cases hvocabulary : (isOneOf phases (member members (js "phase")) = true ∧
      isOneOf statuses (member members (js "status")) = true) ∧
      isOneOf sourceClasses (member members (js "source_class")) = true
  · rw [if_pos hvocabulary]
    have hreached := and_assoc.mp hvocabulary
    by_cases hpattern : eventTypePattern.test text = true
    · rw [if_pos hpattern]
      simp only [hreached, true_imp_iff, Except.ok.injEq, forall_eq', hpattern, and_self]
      rw [← returns_validateEventVocabulary _ _ (stringOf (member members (js "phase")))
        (stringOf (member members (js "status")))
        (stringOf (member members (js "source_class")))]
      cases validateEventVocabulary (member members (js "event_type")) text
        (stringOf (member members (js "phase"))) (stringOf (member members (js "status")))
        (stringOf (member members (js "source_class"))) <;> simp [returns_error, returns_pure]
    · simp [hpattern, returns_pure]
  · rw [if_neg hvocabulary, ← and_assoc]
    simp [hvocabulary, returns_pure]

/-- A value over which `for (… of v ?? [])` iterates. -/
def Iterable (v : Option Json) : Prop := isNullish v ∨ isArray v ∨ isString v

theorem returns_iterate {v : Option Json} : Returns (iterate v) ↔ Iterable v := by
  unfold Iterable
  cases v with
  | none => simp [iterate, returns_pure, isNullish]
  | some v => cases v <;> simp [iterate, returns_pure, returns_error, isNullish, isArray, isString]

/-- What the verifier coerces, looks up and iterates over of an event. -/
structure EventSafe (rt : Runtime) (event : Json) : Prop where
  id : Coercible (get (some event) (js "event_id"))
  eventType : Coercible (get (some event) (js "event_type"))
  typeReadable : VocabularyReached event → TypeReadable rt (get (some event) (js "event_type"))
  parents : ∀ parent ∈ itemsOf (get (some event) (js "parent_event_digests")), DigestSafe parent
  parentsIterable : Iterable (get (some event) (js "parent_event_digests"))
  refsIterable : Iterable (get (some event) (js "evidence_refs"))

theorem returns_verifyParentDigests {parents : Option Json} {path : JsString} :
    Returns (verifyParentDigests rt.withoutPrototypes parents path) ↔
      ∀ parent ∈ itemsOf parents, DigestSafe parent := by
  unfold verifyParentDigests
  split
  · rw [returns_repeatedTexts, List.forall_mem_map, itemsOf]
    simp only [returns_digestKey]
  · next h =>
    have hitems : itemsOf parents = [] := by
      unfold itemsOf
      split
      · next items => exact absurd rfl (h items)
      · rfl
    simp [hitems]

theorem returns_verifyEvidenceRefs {refs : Option Json} {path : JsString} :
    Returns (verifyEvidenceRefs refs path) := by
  unfold verifyEvidenceRefs
  split <;> simp

/-- What `verifyEvent` itself needs of an event. -/
structure EventReadable (rt : Runtime) (event : Json) : Prop where
  eventType : Coercible (get (some event) (js "event_type"))
  typeReadable : VocabularyReached event → TypeReadable rt (get (some event) (js "event_type"))
  parents : ∀ parent ∈ itemsOf (get (some event) (js "parent_event_digests")), DigestSafe parent

theorem returns_verifyEvent {issuerIds : List JsString} {event : Json} {path : JsString} :
    Returns (verifyEvent rt.withoutPrototypes issuerIds event path) ↔
      EventReadable rt.withoutPrototypes event := by
  cases event with
  | obj members =>
    simp only [verifyEvent, Check.returns_all, List.forall_mem_cons, List.not_mem_nil,
      false_imp_iff, implies_true, and_true, true_and, List.forall_mem_map, returns_flag,
      returns_requireText, returns_requireObject, returns_requirePattern,
      returns_verifyParentDigests, returns_verifyEvidenceRefs, returns_verifyEntityRef,
      returns_verifyObjectDigest]
    constructor
    · rintro ⟨htype, hparents, hvocabulary⟩
      exact ⟨htype, (returns_verifyEventVocabulary htype).mp hvocabulary, hparents⟩
    · intro h
      exact ⟨h.eventType, h.parents, (returns_verifyEventVocabulary h.eventType).mpr h.typeReadable⟩
  | _ =>
    simp only [verifyEvent, returns_flag, true_iff]
    apply EventReadable.mk
    · trivial
    · intro h
      cases h.1
    · simp [Core.get, itemsOf]

/-- What the verifier coerces of an evidence item. -/
structure EvidenceSafe (evidence : Json) : Prop where
  id : Coercible (get (some evidence) (js "evidence_id"))
  evidenceType : Coercible (get (some evidence) (js "evidence_type"))
  mediaType : Coercible (get (some evidence) (js "media_type"))

theorem returns_verifyLocator {locator : Option Json} {path : JsString} :
    Returns (verifyLocator rt locator path) := by
  unfold verifyLocator
  split <;> simp

theorem returns_verifyClaimScope {scope : Option Json} {path : JsString} :
    Returns (verifyClaimScope scope path) := by
  unfold verifyClaimScope
  dsimp only
  split <;> simp

theorem returns_verifyEvidence {issuerIds : List JsString} {evidence : Json} {path : JsString} :
    Returns (verifyEvidence rt.withoutPrototypes issuerIds evidence path) ↔
      Coercible (get (some evidence) (js "evidence_type")) ∧
        Coercible (get (some evidence) (js "media_type")) := by
  cases evidence with
  | obj members =>
    simp only [verifyEvidence, Check.returns_all, List.forall_mem_cons, List.not_mem_nil,
      false_imp_iff, implies_true, and_true, true_and, List.forall_mem_map, returns_flag,
      returns_requireText, returns_requireObject, returns_requirePattern, returns_verifyLocator,
      returns_verifyClaimScope, returns_verifyObjectDigest, Core.get]
  | _ => simp [verifyEvidence, Core.get, Coercible]

/-- What the verifier coerces of a relationship. -/
structure RelationshipSafe (relationship : Json) : Prop where
  fromRef : Coercible (get (some relationship) (js "from_ref"))
  toRef : Coercible (get (some relationship) (js "to_ref"))

theorem returns_verifyRelationshipVocabulary {members : Members} {path : JsString}
    (hfrom : Coercible (member members (js "from_ref")))
    (hto : Coercible (member members (js "to_ref"))) :
    Returns (verifyRelationshipVocabulary rt.withoutPrototypes members path) := by
  obtain ⟨fromText, hfrom⟩ := (returns_textOrEmpty rt _).mpr hfrom
  obtain ⟨toText, hto⟩ := (returns_textOrEmpty rt _).mpr hto
  unfold verifyRelationshipVocabulary
  simp only [hfrom, hto]
  split
  · split
    · exact returns_ok _
    · exact returns_ok _
  · exact returns_ok _

theorem returns_verifyRelationship {relationship : Json} {path : JsString} :
    Returns (verifyRelationship rt.withoutPrototypes relationship path) ↔
      RelationshipSafe relationship := by
  cases relationship with
  | obj members =>
    simp only [verifyRelationship, Check.returns_all, List.forall_mem_cons, List.not_mem_nil,
      false_imp_iff, implies_true, and_true, true_and, List.forall_mem_map, returns_flag,
      returns_requireText, returns_requireObject, returns_requirePattern,
      returns_verifyObjectDigest]
    constructor
    · rintro ⟨⟨hfrom, hto⟩, _⟩
      exact ⟨hfrom, hto⟩
    · intro h
      exact ⟨⟨h.fromRef, h.toRef⟩, returns_verifyRelationshipVocabulary h.fromRef h.toRef⟩
  | _ => exact iff_of_true returns_flag ⟨trivial, trivial⟩

theorem returns_collection {c : Collection} {check : Json → JsString → BundleCheck}
    {P : Json → Prop} (h : ∀ item path, Returns (check item path) ↔ P item)
    {registry : Registry} {items : List Json} :
    Returns (c.verify check registry items) ↔ ∀ item ∈ items, P item := by
  unfold Collection.verify
  apply Check.returns_visit
  intro registry index item
  have hdup (id : Option Json) (path : JsString) :
      Returns (duplicateIdCheck registry id path) := by
    unfold duplicateIdCheck
    split
    · split <;> exact returns_ok _
    · exact returns_ok _
  rw [Check.returns_both, h]
  simp [hdup]

theorem returns_verifyObjects {s : Sections} :
    Returns (verifyObjects rt.withoutPrototypes s) ↔
      (∀ event ∈ s.events, EventReadable rt.withoutPrototypes event) ∧
      (∀ evidence ∈ s.evidence, Coercible (get (some evidence) (js "evidence_type")) ∧
        Coercible (get (some evidence) (js "media_type"))) ∧
      ∀ relationship ∈ s.relationships, RelationshipSafe relationship := by
  simp only [verifyObjects, Check.returns_all, List.forall_mem_cons, List.not_mem_nil,
    false_imp_iff, implies_true, and_true]
  apply and_congr
  · apply returns_collection
    intro event path
    exact returns_verifyEvent
  · apply and_congr
    · apply returns_collection
      intro evidence path
      exact returns_verifyEvidence
    · apply returns_collection
      intro relationship path
      exact returns_verifyRelationship

theorem returns_verifyIssuers {issuers : List Json} :
    Returns (verifyIssuers rt.withoutPrototypes issuers) ↔ ∀ issuer ∈ issuers,
      ∀ identifier ∈ itemsOf (get (some issuer) (js "identifiers")),
        IdentifierSafe identifier := by
  unfold verifyIssuers
  apply Check.returns_visit
  intro seen index issuer
  simp [returns_verifyIssuer]

theorem returns_verifyEventReferences (s : Sections) {index : Nat} {event : Json} :
    Returns (verifyEventReferences s index event) ↔
      Iterable (get (some event) (js "parent_event_digests")) ∧
        Iterable (get (some event) (js "evidence_refs")) := by
  have hparent (parent : Json) (digests : List (Option Json)) (path : JsString) :
      Returns (verifyParent digests event path parent) := by
    unfold verifyParent
    dsimp only
    split
    · simp
    · split <;> simp
  rw [← returns_iterate, ← returns_iterate, verifyEventReferences]
  cases iterate (get (some event) (js "parent_event_digests")) with
  | error thrown => simp [returns_error]
  | ok parents =>
    cases iterate (get (some event) (js "evidence_refs")) with
    | error thrown => simp [returns_error]
    | ok refs => simp [returns_pure, hparent]

theorem returns_typedRefs {kind idField : String} {items : List Json} :
    (∀ r ∈ typedRefs rt.withoutPrototypes kind idField items, Returns r) ↔
      ∀ item ∈ items, Coercible (get (some item) (js idField)) := by
  simp only [typedRefs, List.forall_mem_map, returns_map, returns_textOf]

theorem returns_verifyReferences {s : Sections} :
    Returns (verifyReferences rt.withoutPrototypes s) ↔
      (∀ event ∈ s.events, Iterable (get (some event) (js "parent_event_digests")) ∧
        Iterable (get (some event) (js "evidence_refs"))) ∧
      (∀ event ∈ s.events, Coercible (get (some event) (js "event_id"))) ∧
      (∀ evidence ∈ s.evidence, Coercible (get (some evidence) (js "evidence_id"))) ∧
      ∀ issuer ∈ s.issuers, Coercible (get (some issuer) (js "issuer_id")) := by
  have hrefs : Returns (resolvableRefs rt.withoutPrototypes s) ↔
      (∀ event ∈ s.events, Coercible (get (some event) (js "event_id"))) ∧
      (∀ evidence ∈ s.evidence, Coercible (get (some evidence) (js "evidence_id"))) ∧
      ∀ issuer ∈ s.issuers, Coercible (get (some issuer) (js "issuer_id")) := by
    rw [resolvableRefs, returns_collect, List.forall_mem_append, List.forall_mem_append,
      returns_typedRefs, returns_typedRefs, returns_typedRefs, and_assoc]
  have hevents : Returns (Check.each (verifyEventReferences s) s.events) ↔ ∀ event ∈ s.events,
      Iterable (get (some event) (js "parent_event_digests")) ∧
        Iterable (get (some event) (js "evidence_refs")) :=
    Check.returns_each fun index event ↦ returns_verifyEventReferences s
  rw [verifyReferences, Check.returns_both, hevents, ← hrefs]
  cases resolvableRefs rt.withoutPrototypes s with
  | error thrown => simp [returns_error]
  | ok refs =>
    have hendpoints : Returns (Check.each (verifyEndpoints refs) s.relationships) :=
      (Check.returns_each (P := fun _ ↦ True) fun index relationship ↦ by
        simp [verifyEndpoints]).mpr fun _ _ ↦ trivial
    simp [hendpoints, returns_pure]

theorem returns_verifyPredecessors {predecessors : List Json} :
    Returns (verifyPredecessors rt.withoutPrototypes predecessors) ↔
      ∀ digest ∈ predecessors, DigestSafe digest := by
  rw [verifyPredecessors, Check.returns_both, returns_repeatedTexts, List.forall_mem_map]
  have hshape : Returns (Check.each (fun index digest ↦
      flag (!validDigest (some digest)) .predecessorDigestInvalid
        "Predecessor digest is malformed."
        (elementPath (js "$.payload.predecessor_bundle_digests") index)) predecessors) :=
    (Check.returns_each (P := fun _ ↦ True) fun index digest ↦ by simp).mpr fun _ _ ↦ trivial
  simp [hshape, returns_digestKey]

/-! ### Proofs -/

/-- A first-match search reaches no `null`: every `null` has a match before it. -/
def NullsAfterMatch (idField : JsString) (id : Option Json) (items : List Json) : Prop :=
  ∀ before after, items = before ++ .null :: after →
    ∃ item ∈ before, strictEqual (get (some item) idField) id = true

theorem returns_findById {idField : JsString} {id : Option Json} {items : List Json} :
    Returns (findById idField id items) ↔ NullsAfterMatch idField id items := by
  induction items with
  | nil => simp [findById, returns_pure, NullsAfterMatch]
  | cons item rest ih =>
    by_cases hnull : item = .null
    · rw [hnull]
      refine iff_of_false (by simp [findById, returns_error]) fun h ↦ ?_
      obtain ⟨_, hmem, _⟩ := h [] rest rfl
      cases hmem
    · have hfind : findById idField id (item :: rest) =
          if strictEqual (get (some item) idField) id then .ok (some item)
          else findById idField id rest := by
        cases item <;> first | rfl | exact absurd rfl hnull
      rw [hfind]
      by_cases hmatch : strictEqual (get (some item) idField) id = true
      · rw [if_pos hmatch]
        refine iff_of_true (returns_ok _) fun before after hsplit ↦ ?_
        cases before with
        | nil => exact absurd (List.cons.inj hsplit).1 hnull
        | cons first before =>
          obtain ⟨rfl, -⟩ := List.cons.inj hsplit
          exact ⟨item, List.mem_cons_self, hmatch⟩
      · rw [if_neg hmatch, ih]
        constructor
        · intro h before after hsplit
          cases before with
          | nil => exact absurd (List.cons.inj hsplit).1 hnull
          | cons first before =>
            obtain ⟨found, hfound, heq⟩ := h before after (List.cons.inj hsplit).2
            exact ⟨found, List.mem_cons_of_mem _ hfound, heq⟩
        · intro h before after hsplit
          obtain ⟨found, hfound, heq⟩ := h (item :: before) after (by rw [hsplit]; rfl)
          rcases List.mem_cons.mp hfound with rfl | hfound
          · exact absurd heq hmatch
          · exact ⟨found, hfound, heq⟩

/-- What the verifier coerces and looks up to resolve a target. -/
structure TargetSafe (rt : Runtime) (payload : Members) (target : Option Json) : Prop where
  targetType : Coercible (get target (js "target_type"))
  notInherited : ∀ key, textOf rt (get target (js "target_type")) = .ok key →
    key ∉ objectPrototypeNames
  lookup : ∀ key collection idField, textOf rt (get target (js "target_type")) = .ok key →
    targetCollection key = some (collection, idField) →
    NullsAfterMatch idField (get target (js "target_id")) (itemsOf (member payload collection))

/-- A target type that reads as a text is safe when the text is no inherited name and the search
in its collection is. -/
theorem targetSafe_iff {payload : Members} {target : Option Json} {key : JsString}
    (htext : textOf rt.withoutPrototypes (get target (js "target_type")) = .ok key) :
    TargetSafe rt.withoutPrototypes payload target ↔
      key ∉ objectPrototypeNames ∧ ∀ collection idField,
        targetCollection key = some (collection, idField) →
        NullsAfterMatch idField (get target (js "target_id"))
          (itemsOf (member payload collection)) := by
  constructor
  · intro h
    exact ⟨h.notInherited key htext, fun collection idField ↦ h.lookup key collection idField htext⟩
  · rintro ⟨hname, hlookup⟩
    refine ⟨(returns_textOf rt _).mp ⟨key, htext⟩, fun other hother ↦ ?_,
      fun other collection idField hother ↦ ?_⟩
    · obtain rfl := Except.ok.inj (htext.symm.trans hother)
      exact hname
    · obtain rfl := Except.ok.inj (htext.symm.trans hother)
      exact hlookup collection idField

/-- No inherited name is a target type. -/
theorem targetCollection_inherited {key : JsString} (h : key ∈ objectPrototypeNames) :
    targetCollection key = none := by
  have hall : (objectPrototypeNames.all fun name ↦ (targetCollection name).isNone) = true := by
    decide
  exact Option.isNone_iff_eq_none.mp (List.all_eq_true.mp hall key h)

theorem returns_resolveTarget {bundle : Members} (target : Option Json)
    (hdigest : Returns (calculatePayloadDigest rt.withoutPrototypes bundle)) :
    Returns (resolveTarget rt.withoutPrototypes bundle target) ↔
      TargetSafe rt.withoutPrototypes (membersOf (member bundle (js "payload"))) target := by
  unfold resolveTarget
  dsimp only
  by_cases hobject : (!isObject target && !isArray target) = true
  · rw [if_pos hobject]
    have hget : get target (js "target_type") = none := by
      unfold Core.get
      split
      · simp [isObject] at hobject
      · rfl
    have htext : textOf rt.withoutPrototypes (get target (js "target_type")) =
        .ok (js "undefined") := by
      rw [hget]
      rfl
    apply iff_of_true (returns_ok _)
    rw [targetSafe_iff htext]
    exact ⟨by decide, fun _ _ h ↦ by cases h⟩
  · rw [if_neg hobject]
    by_cases hpayload : isText (get target (js "target_type")) (js "BUNDLE_PAYLOAD") = true
    · rw [if_pos hpayload]
      have htext : textOf rt.withoutPrototypes (get target (js "target_type")) =
          .ok (js "BUNDLE_PAYLOAD") := by
        rw [isText_iff.mp hpayload]
        rfl
      obtain ⟨digest, hdigest⟩ := hdigest
      rw [hdigest]
      apply iff_of_true (returns_ok _)
      rw [targetSafe_iff htext, targetCollection_payload]
      exact ⟨by decide, fun _ _ h ↦ by cases h⟩
    · rw [if_neg hpayload]
      cases htext : textOf rt.withoutPrototypes (get target (js "target_type")) with
      | error thrown =>
        apply iff_of_false (not_returns_error thrown)
        intro h
        obtain ⟨key, hkey⟩ := (returns_textOf rt _).mpr h.targetType
        rw [htext] at hkey
        cases hkey
      | ok key =>
        rw [targetSafe_iff htext]
        dsimp only
        by_cases hname : key ∈ objectPrototypeNames
        · rw [targetCollection_inherited hname]
          simp [hname, returns_error]
        · cases hcollection : targetCollection key with
          | none => simp [hname, returns_pure]
          | some entry =>
            obtain ⟨collection, idField⟩ := entry
            simp only [hname, not_false_eq_true, true_and, Option.some.injEq, Prod.mk.injEq,
              and_imp, forall_apply_eq_imp_iff, forall_eq']
            rw [← returns_findById]
            cases findById idField (get target (js "target_id"))
                (itemsOf (member (membersOf (member bundle (js "payload"))) collection)) with
            | error thrown => simp [returns_error]
            | ok found =>
              cases found with
              | none => simp [returns_pure]
              | some object =>
                dsimp only
                split <;> simp [returns_pure]

/-- The keys of an issuer can be searched for a key id. -/
def KeysSearchable (keys : Option Json) (keyId : JsString) : Prop :=
  isNullish keys = true ∨
    ∃ items, keys = some (.arr items) ∧ NullsAfterMatch (js "key_id") (some (.str keyId)) items

theorem returns_findKey (issuer : Json) (keyId : JsString) :
    Returns (findKey issuer keyId) ↔ KeysSearchable (get (some issuer) (js "keys")) keyId := by
  unfold findKey KeysSearchable
  cases get (some issuer) (js "keys") with
  | none => simp [returns_pure, isNullish]
  | some keys =>
    cases keys with
    | null => simp [returns_pure, isNullish]
    | arr items => simp [returns_findById, isNullish]
    | _ => simp [returns_error, isNullish]

theorem returns_outsideBound (rt : Runtime) (bound createdAt : Option Json)
    (excludes : Option Int → Option Int → Bool) :
    Returns (outsideBound rt.withoutPrototypes bound createdAt excludes) ↔
      (truthy bound = true → Coercible createdAt ∧ Coercible bound) := by
  unfold outsideBound
  split
  · next hbound =>
    simp only [hbound, true_imp_iff]
    rw [← returns_textOf rt, ← returns_textOf rt]
    unfold dateParseOf
    cases textOf rt.withoutPrototypes createdAt <;> cases textOf rt.withoutPrototypes bound <;>
      simp [bind, Except.bind, Except.map, returns_error, returns_pure]
  · next hbound => simp [hbound, returns_pure]

/-- What the verifier coerces of a key and a proof to compare their times; the later bound is
reached when the earlier one does not exclude the proof. -/
structure BoundsSafe (rt : Runtime) (key : Json) (proof : Members) : Prop where
  validFrom : truthy (get (some key) (js "valid_from")) = true →
    Coercible (member proof (js "created_at")) ∧ Coercible (get (some key) (js "valid_from"))
  validUntil : outsideBound rt (get (some key) (js "valid_from")) (member proof (js "created_at"))
      (fun created limit ↦ timeBefore created limit) = .ok false →
    truthy (get (some key) (js "valid_until")) = true →
    Coercible (member proof (js "created_at")) ∧ Coercible (get (some key) (js "valid_until"))

/-- The times of a proof and a key are compared. -/
structure TimesCompared (key : Json) (proof : Members) : Prop where
  proofAlgorithm : isText (member proof (js "algorithm")) (js "Ed25519") = true
  keyAlgorithm : isText (get (some key) (js "algorithm")) (js "Ed25519") = true
  keyFormat : isText (get (some key) (js "format")) (js "spki-pem") = true

theorem returns_verifyWithKey {payload proof : Members} {key : Json} :
    Returns (verifyWithKey rt.withoutPrototypes payload proof key) ↔
      (TimesCompared key proof → BoundsSafe rt.withoutPrototypes key proof) := by
  unfold verifyWithKey
  dsimp only
  by_cases hcompared : TimesCompared key proof
  · have halgorithm : ¬(!isText (member proof (js "algorithm")) (js "Ed25519") ||
        !isText (get (some key) (js "algorithm")) (js "Ed25519")) = true := by
      simp [hcompared.proofAlgorithm, hcompared.keyAlgorithm]
    have hformat : ¬(!isText (get (some key) (js "format")) (js "spki-pem")) = true := by
      simp [hcompared.keyFormat]
    rw [if_neg halgorithm, if_neg hformat]
    simp only [hcompared, true_imp_iff]
    have hfrom := returns_outsideBound rt (get (some key) (js "valid_from"))
      (member proof (js "created_at")) fun created limit ↦ timeBefore created limit
    have huntil := returns_outsideBound rt (get (some key) (js "valid_until"))
      (member proof (js "created_at")) fun created limit ↦ timeBefore limit created
    cases hf : outsideBound rt.withoutPrototypes (get (some key) (js "valid_from"))
        (member proof (js "created_at")) fun created limit ↦ timeBefore created limit with
    | error thrown =>
      rw [hf] at hfrom
      exact iff_of_false (not_returns_error thrown) fun h ↦
        not_returns_error thrown (hfrom.mpr h.validFrom)
    | ok before =>
      rw [hf] at hfrom
      have hafter := hfrom.mp (returns_ok before)
      cases before with
      | true =>
        apply iff_of_true (returns_ok _)
        exact ⟨hafter, fun h ↦ by simp [hf] at h⟩
      | false =>
        have hsafe : BoundsSafe rt.withoutPrototypes key proof ↔
            (truthy (get (some key) (js "valid_until")) = true →
              Coercible (member proof (js "created_at")) ∧
                Coercible (get (some key) (js "valid_until"))) :=
          ⟨fun h ↦ h.validUntil hf, fun h ↦ ⟨hafter, fun _ ↦ h⟩⟩
        rw [hsafe, ← huntil]
        cases outsideBound rt.withoutPrototypes (get (some key) (js "valid_until"))
            (member proof (js "created_at")) fun created limit ↦ timeBefore limit created with
        | error thrown => simp [returns_error]
        | ok after => cases after <;> simp [returns_pure]
  · apply iff_of_true
    · by_cases halgorithm : (!isText (member proof (js "algorithm")) (js "Ed25519") ||
          !isText (get (some key) (js "algorithm")) (js "Ed25519")) = true
      · rw [if_pos halgorithm]
        exact returns_ok _
      · rw [if_neg halgorithm]
        by_cases hformat : (!isText (get (some key) (js "format")) (js "spki-pem")) = true
        · rw [if_pos hformat]
          exact returns_ok _
        · simp only [Bool.or_eq_true, Bool.not_eq_true', not_or, Bool.not_eq_false] at halgorithm
          simp only [Bool.not_eq_true', Bool.not_eq_false] at hformat
          exact absurd ⟨halgorithm.1, halgorithm.2, hformat⟩ hcompared
    · intro h
      exact absurd h hcompared

/-- What the verifier looks up and compares in the issuer of a proof whose method names it. -/
structure SignerSafe (rt : Runtime) (proof : Members) (issuer : Json) (keyId : JsString) :
    Prop where
  keys : KeysSearchable (get (some issuer) (js "keys")) keyId
  bounds : ∀ key, findKey issuer keyId = .ok (some key) → TimesCompared key proof →
    BoundsSafe rt key proof

/-- The method of a proof names its issuer and a key. -/
structure NamesKey (proof : Members) (issuer : Option Json) (keyId : JsString) : Prop where
  exists_method : ∃ method issuerId,
    member proof (js "verification_method") = some (.str method) ∧
    splitVerificationMethod method = some (issuerId, keyId) ∧
    isText (member proof (js "issuer_ref")) issuerId = true ∧
    isText (get issuer (js "issuer_id")) issuerId = true

theorem returns_verifyWithIssuer {payload proof : Members} {issuer : Option Json} :
    Returns (verifyWithIssuer rt.withoutPrototypes payload proof issuer) ↔
      ∀ keyId, NamesKey proof issuer keyId →
        SignerSafe rt.withoutPrototypes proof (issuer.getD .null) keyId := by
  unfold verifyWithIssuer
  split
  · next method hmethod =>
    cases hsplit : splitVerificationMethod method with
    | none =>
      apply iff_of_true (returns_ok _)
      rintro keyId ⟨other, issuerId, hother, hparts, _⟩
      rw [hmethod] at hother
      cases hother
      rw [hsplit] at hparts
      cases hparts
    | some parts =>
      obtain ⟨issuerId, keyId⟩ := parts
      dsimp only
      have hnames (other : JsString) : NamesKey proof issuer other ↔ other = keyId ∧
          isText (member proof (js "issuer_ref")) issuerId = true ∧
          isText (get issuer (js "issuer_id")) issuerId = true := by
        constructor
        · rintro ⟨m, i, hm, hs, href, hid⟩
          rw [hmethod] at hm
          cases hm
          rw [hsplit] at hs
          cases hs
          exact ⟨rfl, href, hid⟩
        · rintro ⟨hkey, href, hid⟩
          exact ⟨method, issuerId, hmethod, hkey ▸ hsplit, href, hid⟩
      by_cases hmatch : isText (member proof (js "issuer_ref")) issuerId = true ∧
          isText (get issuer (js "issuer_id")) issuerId = true
      · have hno : ¬(!isText (member proof (js "issuer_ref")) issuerId ||
            !isText (get issuer (js "issuer_id")) issuerId) = true := by
          simp [hmatch.1, hmatch.2]
        rw [if_neg hno]
        simp only [hnames, hmatch, and_true, forall_eq]
        have hkeys := returns_findKey (issuer.getD .null) keyId
        cases hfind : findKey (issuer.getD .null) keyId with
        | error thrown =>
          rw [hfind] at hkeys
          exact iff_of_false (not_returns_error thrown) fun h ↦
            not_returns_error thrown (hkeys.mpr h.keys)
        | ok found =>
          rw [hfind] at hkeys
          have hsearch := hkeys.mp (returns_ok found)
          cases found with
          | none =>
            apply iff_of_true (returns_ok _)
            exact ⟨hsearch, fun key hkey ↦ by simp [hfind] at hkey⟩
          | some key =>
            dsimp only
            rw [returns_verifyWithKey]
            constructor
            · intro h
              refine ⟨hsearch, fun other hother ↦ ?_⟩
              rw [hfind] at hother
              cases hother
              exact h
            · intro h
              exact h.bounds key hfind
      · have hyes : (!isText (member proof (js "issuer_ref")) issuerId ||
            !isText (get issuer (js "issuer_id")) issuerId) = true := by
          rw [not_and_or] at hmatch
          rcases hmatch with h | h <;> simp [h]
        rw [if_pos hyes]
        apply iff_of_true (returns_ok _)
        intro other hother
        exact absurd ((hnames other).mp hother).2 hmatch
  · next hmethod =>
    apply iff_of_true (returns_ok _)
    rintro keyId ⟨method, _, hm, _⟩
    exact absurd hm (hmethod method)

/-- The target of a proof resolves, and the digest it carries is the one of what it names. -/
def TargetMatches (rt : Runtime) (bundle proof : Members) : Prop :=
  ∃ resolved, resolveTarget rt bundle (member proof (js "target")) = .ok (some resolved) ∧
    digestEquals resolved.digest (get (member proof (js "target")) (js "digest")) = true

/-- What the verifier coerces and looks up to verify a proof. -/
structure ProofSafe (rt : Runtime) (bundle : Members) (issuers : List Json) (proof : Members) :
    Prop where
  target : TargetSafe rt (membersOf (member bundle (js "payload"))) (member proof (js "target"))
  signer : TargetMatches rt bundle proof → ∀ keyId,
    NamesKey proof (issuerOf issuers proof) keyId →
    SignerSafe rt proof ((issuerOf issuers proof).getD .null) keyId

theorem returns_proofResult {bundle : Members} {issuers : List Json} {proof : Members}
    (hdigest : Returns (calculatePayloadDigest rt.withoutPrototypes bundle)) :
    Returns (proofResult rt.withoutPrototypes bundle issuers proof) ↔
      ProofSafe rt.withoutPrototypes bundle issuers proof := by
  have htarget := returns_resolveTarget (member proof (js "target")) hdigest
  unfold proofResult verifySignatureProof
  dsimp only
  cases hresolve : resolveTarget rt.withoutPrototypes bundle (member proof (js "target")) with
  | error thrown =>
    rw [hresolve] at htarget
    exact iff_of_false (not_returns_error thrown) fun h ↦
      not_returns_error thrown (htarget.mpr h.target)
  | ok found =>
    rw [hresolve] at htarget
    have hsafe := htarget.mp (returns_ok found)
    cases found with
    | none =>
      apply iff_of_true (returns_ok _)
      exact ⟨hsafe, fun ⟨resolved, h, _⟩ ↦ by simp [hresolve] at h⟩
    | some resolved =>
      dsimp only
      have hmatches : TargetMatches rt.withoutPrototypes bundle proof ↔
          digestEquals resolved.digest
            (get (member proof (js "target")) (js "digest")) = true := by
        simp [TargetMatches, hresolve]
      by_cases hdigests : digestEquals resolved.digest
          (get (member proof (js "target")) (js "digest")) = true
      · rw [if_neg (by simp [hdigests]), returns_verifyWithIssuer]
        exact ⟨fun h ↦ ⟨hsafe, fun _ ↦ h⟩, fun h ↦ h.signer (hmatches.mpr hdigests)⟩
      · rw [if_pos (by simp [hdigests])]
        apply iff_of_true (returns_ok _)
        exact ⟨hsafe, fun h ↦ absurd (hmatches.mp h) hdigests⟩

theorem returns_verifyProofs {bundle : Members} {s : Sections}
    (hdigest : Returns (calculatePayloadDigest rt.withoutPrototypes bundle)) :
    Returns (verifyProofs rt.withoutPrototypes bundle s) ↔
      ∀ proof ∈ s.proofs, ∀ members, proof = .obj members →
        ProofSafe rt.withoutPrototypes bundle s.issuers members := by
  unfold verifyProofs
  apply Check.returns_visit
  intro seen index proof
  cases proof with
  | obj members =>
    have htarget (target : Option Json) (path : JsString) :
        Returns (verifyProofTarget target path) := by
      unfold verifyProofTarget
      split <;> simp
    have hshape (path : JsString) : Returns (verifyProofShape s.issuerIds members path) := by
      simp [verifyProofShape, htarget]
    simp only [Check.returns_all, List.forall_mem_cons, List.not_mem_nil, false_imp_iff,
      implies_true, and_true, hshape, returns_flag, true_and, Json.obj.injEq, forall_eq']
    rw [← returns_proofResult hdigest, verifyProofSignature]
    cases proofResult rt.withoutPrototypes bundle s.issuers members with
    | error thrown => simp [returns_error]
    | ok result => cases result <;> simp [returns_pure]
  | _ => simp

/-! ### The verifier -/

/-- No value that the verifier reaches in the content of a bundle makes it throw. -/
structure ContentSafe (rt : Runtime) (bundle : Members) : Prop where
  issuers : ∀ issuer ∈ (sectionsOf bundle).issuers, IssuerSafe issuer
  events : ∀ event ∈ (sectionsOf bundle).events, EventSafe rt event
  evidence : ∀ evidence ∈ (sectionsOf bundle).evidence, EvidenceSafe evidence
  relationships : ∀ relationship ∈ (sectionsOf bundle).relationships,
    RelationshipSafe relationship
  predecessors : ∀ digest ∈ (sectionsOf bundle).predecessors, DigestSafe digest
  proofs : ∀ proof ∈ (sectionsOf bundle).proofs, ∀ members, proof = .obj members →
    ProofSafe rt bundle (sectionsOf bundle).issuers members

theorem returns_verifyContent {bundle : Members}
    (hdigest : Returns (calculatePayloadDigest rt.withoutPrototypes bundle)) :
    Returns (verifyContent rt.withoutPrototypes bundle) ↔
      ContentSafe rt.withoutPrototypes bundle := by
  have hpayload : Returns (payloadDigestCheck rt.withoutPrototypes bundle) := by
    unfold payloadDigestCheck
    split <;> exact returns_ok _
  simp only [verifyContent, Check.returns_all, List.forall_mem_cons, List.not_mem_nil,
    false_imp_iff, implies_true, and_true, hpayload, returns_verifyIssuers, returns_verifyObjects,
    returns_verifyReferences, returns_verifyPredecessors, returns_verifyProofs hdigest]
  constructor
  · rintro ⟨hidentifiers, ⟨hevents, hevidence, hrelationships⟩,
      ⟨hiterable, heventIds, hevidenceIds, hissuerIds⟩, hpredecessors, hproofs⟩
    exact {
      issuers := fun issuer h ↦ ⟨hissuerIds issuer h, hidentifiers issuer h⟩
      events := fun event h ↦ {
        id := heventIds event h
        eventType := (hevents event h).eventType
        typeReadable := (hevents event h).typeReadable
        parents := (hevents event h).parents
        parentsIterable := (hiterable event h).1
        refsIterable := (hiterable event h).2 }
      evidence := fun item h ↦ ⟨hevidenceIds item h, (hevidence item h).1, (hevidence item h).2⟩
      relationships := hrelationships
      predecessors := hpredecessors
      proofs := hproofs }
  · intro h
    refine ⟨fun issuer hi ↦ (h.issuers issuer hi).identifiers, ⟨fun event he ↦ ?_,
      fun item hi ↦ ⟨(h.evidence item hi).evidenceType, (h.evidence item hi).mediaType⟩,
      h.relationships⟩, ⟨fun event he ↦ ?_, fun event he ↦ (h.events event he).id,
      fun item hi ↦ (h.evidence item hi).id, fun issuer hi ↦ (h.issuers issuer hi).id⟩,
      h.predecessors, h.proofs⟩
    · exact ⟨(h.events event he).eventType, (h.events event he).typeReadable,
        (h.events event he).parents⟩
    · exact ⟨(h.events event he).parentsIterable, (h.events event he).refsIterable⟩

/-- A stage with an early return lets the next stage decide, unless it reports an issue. -/
theorem returns_verifyValue {bundle : Json} :
    Returns (verifyValue rt bundle) ↔
      (EnvelopeOk bundle → PayloadOk (membersOf (get (some bundle) (js "payload"))) →
        Returns (verifyContent rt (membersOf (some bundle)))) := by
  have henvelope : Returns (verifyEnvelope bundle) := by
    unfold verifyEnvelope
    split <;> simp
  have hpayload (payload : Members) : Returns (verifyPayload payload) := by
    simp [verifyPayload]
  have hget : member (membersOf (some bundle)) (js "payload") =
      get (some bundle) (js "payload") := by
    cases bundle <;> rfl
  obtain ⟨found, henvelope⟩ := henvelope
  obtain ⟨more, hpayload⟩ := hpayload (membersOf (get (some bundle) (js "payload")))
  rw [← clean_verifyEnvelope, ← clean_verifyPayload, Check.Clean, Check.Clean, verifyValue]
  rw [hget, henvelope, hpayload]
  cases found with
  | cons issue rest => simp [returns_pure]
  | nil =>
    cases more with
    | cons issue rest => simp [returns_pure]
    | nil => simp [returns_map]

/-- Data of the strict parser always has a payload digest. -/
theorem returns_calculatePayloadDigest {bundle : Members} (h : (Json.obj bundle).Strict) :
    Returns (calculatePayloadDigest rt bundle) := by
  have hbundle := (strict_iff_encodable _).mp h
  have hpayload : Encodable ((member bundle (js "payload")).getD (.obj bundle)) := by
    cases hmember : member bundle (js "payload") with
    | none => exact hbundle.1
    | some payload =>
      have hall := (Json.all_obj bundle).mp hbundle.1
      exact hall.2 _ (mem_of_member_eq hmember)
  unfold calculatePayloadDigest digestValue
  rw [returns_map]
  exact ⟨_, (canonicalizeBytes_eq_ok_iff _).mpr ⟨hpayload, rfl⟩⟩

/-- The verifier returns a result on a text unless the text parses to an object whose envelope
and payload pass and whose content holds a value that it cannot coerce, iterate over or look
through. -/
theorem verifyBundle_returns_iff (rt : Runtime) (text : JsString) :
    (∃ result, verifyBundle rt (.str text) = .ok result ∧
      (result.status = .valid ∨ result.status = .incomplete ∨ result.status = .invalid)) ↔
    ∀ bundle, parseJsonStrict text = .ok (.obj bundle) → EnvelopeOk (.obj bundle) →
      PayloadOk (membersOf (member bundle (js "payload"))) →
      ContentSafe rt.withoutPrototypes bundle := by
  have hstatus : (∃ result, verifyBundle rt (.str text) = .ok result ∧
      (result.status = .valid ∨ result.status = .incomplete ∨ result.status = .invalid)) ↔
      Returns (verifyBundle rt (.str text)) := by
    constructor
    · rintro ⟨result, h, _⟩
      exact ⟨result, h⟩
    · rintro ⟨result, h⟩
      refine ⟨result, h, ?_⟩
      cases result.status <;> simp
  rw [hstatus, verifyBundle, readBundle]
  cases hparse : parseJsonStrict text with
  | error error => simp [returns_pure]
  | ok value =>
    dsimp only
    rw [returns_verifyValue]
    have hstrict : value.Strict := (parseText_sound (parseJsonStrict_eq_ok_iff.mp hparse)).2.2
    constructor
    · intro h bundle hbundle henvelope hpayload
      obtain rfl := Except.ok.inj hbundle
      exact (returns_verifyContent (returns_calculatePayloadDigest hstrict)).mp
        (h henvelope hpayload)
    · intro h henvelope hpayload
      obtain ⟨bundle, hbundle, _⟩ := exactKeys_iff.mp henvelope.keys
      obtain rfl := Option.some.inj hbundle
      exact (returns_verifyContent (returns_calculatePayloadDigest hstrict)).mpr
        (h bundle rfl henvelope hpayload)

/-- A bundle whose only fault is an object as the algorithm of a predecessor digest. -/
def objectAlgorithmText : JsString :=
  js "\x7b\"payload\":\x7b\"spec_version\":\"0.1\",\"profile\":\"TP-JSON-0.1\"," ++
    js "\"bundle_id\":\"b1\",\"action_id\":\"a1\",\"created_at\":\"2026-07-01T10:00:06Z\"," ++
    js "\"issuers\":[],\"events\":[],\"evidence\":[],\"relationships\":[]," ++
    js "\"predecessor_bundle_digests\":[\x7b\"algorithm\":\x7b\x7d,\"value\":\"\"\x7d]," ++
    js "\"extensions\":\x7b\x7d\x7d,\"proofs\":[]\x7d"

private theorem objectAlgorithmThrows :
    (verifyBundle sampleRuntime (.str objectAlgorithmText)).toOption.isNone = true := by
  decide +kernel

/-- The verifier records the malformed predecessor digest and then throws on it. -/
theorem objectAlgorithm_throws :
    ¬∃ result, verifyBundle sampleRuntime (.str objectAlgorithmText) = .ok result ∧
      (result.status = .valid ∨ result.status = .incomplete ∨ result.status = .invalid) := by
  have hthrows := objectAlgorithmThrows
  rintro ⟨result, hresult, _⟩
  rw [hresult] at hthrows
  cases hthrows

end TimeProofs.Core
