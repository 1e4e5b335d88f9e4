import TimeProofs.Core.Integrity

/-!
# Valid proofs of tampered bundles

`verifyBundle` lists a proof as valid from the digest that its target declares, and recomputes
that digest in a stage that only records an issue. What a listed proof says of the content is
therefore exactly what the declared digest says of it.
-/

namespace TimeProofs.Core

open TimeProofs.Base TimeProofs.Json

/-- The digest of what a target resolves to, computed from its content. -/
def recomputedDigest (rt : Runtime) (bundle : Members) (target : Option Json)
    (resolved : Resolved) : Except JsString Json :=
  if isText (get target (js "target_type")) (js "BUNDLE_PAYLOAD") then
    calculatePayloadDigest rt bundle
  else calculateObjectDigest rt (membersOf (some resolved.value))

/-- The digest that a target carries is the recomputed one of what it resolves to. -/
def TargetSound (rt : Runtime) (bundle : Members) (target : Option Json) : Prop :=
  ∃ resolved digest, resolveTarget rt bundle target = .ok (some resolved) ∧
    recomputedDigest rt bundle target resolved = .ok digest ∧
    digestEquals (some digest) (get target (js "digest")) = true

/-- The test of `TargetSound`. -/
def isTargetSound (rt : Runtime) (bundle : Members) (target : Option Json) : Bool :=
  match resolveTarget rt bundle target with
  | .ok (some resolved) =>
    match recomputedDigest rt bundle target resolved with
    | .ok digest => digestEquals (some digest) (get target (js "digest"))
    | .error _ => false
  | _ => false

theorem isTargetSound_iff {rt : Runtime} {bundle : Members} {target : Option Json} :
    isTargetSound rt bundle target = true ↔ TargetSound rt bundle target := by
  unfold isTargetSound TargetSound
  cases resolveTarget rt bundle target with
  | error thrown => simp
  | ok found =>
    cases found with
    | none => simp
    | some resolved =>
      cases hdigest : recomputedDigest rt bundle target resolved with
      | error message => simp [hdigest]
      | ok digest => simp [hdigest]

instance (rt : Runtime) (bundle : Members) (target : Option Json) :
    Decidable (TargetSound rt bundle target) :=
  decidable_of_iff _ isTargetSound_iff

/-- The digest that an object declares is the digest of its content. -/
def DeclaresContent (rt : Runtime) (object : Json) : Prop :=
  ∃ digest, calculateObjectDigest rt (membersOf (some object)) = .ok digest ∧
    digestEquals (some digest) (get (some object) (js "object_digest")) = true

/-- The object that a target names by a type other than the payload: the first one of the
collection whose id is the one of the target. -/
def TargetsObject (rt : Runtime) (bundle : Members) (target : Option Json) (object : Json) : Prop :=
  get target (js "target_type") ≠ some (.str (js "BUNDLE_PAYLOAD")) ∧
    ∃ targetType collection idField,
      textOf rt (get target (js "target_type")) = .ok targetType ∧
      targetCollection targetType = some (collection, idField) ∧
      (itemsOf (member (membersOf (member bundle (js "payload"))) collection)).find?
        (fun item ↦ strictEqual (get (some item) idField) (get target (js "target_id"))) =
          some object

/-- The key that a proof names: the first one of the id in its verification method, of the first
issuer whose id stands there and in its `issuer_ref`. -/
def NamesIssuerKey (issuers : List Json) (proof : Members) (key : Json) : Prop :=
  ∃ issuerId keyId issuer keys,
    member proof (js "issuer_ref") = some (.str issuerId) ∧
    member proof (js "verification_method") = some (.str (issuerId ++ js "#" ++ keyId)) ∧
    issuerId ≠ [] ∧ keyId ≠ [] ∧ 0x23 ∉ keyId ∧
    issuers.find? (fun candidate ↦
      strictEqual (get (some candidate) (js "issuer_id")) (some (.str issuerId))) = some issuer ∧
    get (some issuer) (js "keys") = some (.arr keys) ∧
    keys.find? (fun candidate ↦
      strictEqual (get (some candidate) (js "key_id")) (some (.str keyId))) = some key

/-- A proof carries an Ed25519 signature under a key, made at a time that the key permits, for the
digest that its target carries. -/
structure SignsDigest (rt : Runtime) (payload proof : Members) (key : Json) : Prop where
  algorithm : member proof (js "algorithm") = some (.str (js "Ed25519"))
  keyAlgorithm : get (some key) (js "algorithm") = some (.str (js "Ed25519"))
  keyFormat : get (some key) (js "format") = some (.str (js "spki-pem"))
  admits : KeyAdmits rt key proof
  signature : ∃ input, buildSignatureInput rt (member payload (js "spec_version"))
      (member payload (js "profile")) (get (member proof (js "target")) (js "target_type"))
      (get (member proof (js "target")) (js "digest")) = .ok input ∧ SignedBy rt key proof input

/-- No altered object is signed: where a proof is signed, under the key that it names, for the
digest that the object of its target declares, that digest is the one of the object's content. -/
def SignedObjectsIntact (rt : Runtime) (bundle : Members) : Prop :=
  ∀ proof object key, .obj proof ∈ (sectionsOf bundle).proofs →
    TargetsObject rt bundle (member proof (js "target")) object →
    digestEquals (get (some object) (js "object_digest"))
      (get (member proof (js "target")) (js "digest")) = true →
    NamesIssuerKey (sectionsOf bundle).issuers proof key →
    SignsDigest rt (membersOf (member bundle (js "payload"))) proof key →
    DeclaresContent rt object

theorem digestEquals_digestObject {hex : JsString} {v : Option Json} :
    digestEquals (some (digestObject hex)) v = true ↔
      get v (js "algorithm") = some (.str (js "sha-256")) ∧
        get v (js "value") = some (.str hex) := by
  have hd := isDigest_digestObject hex
  have hstr (s : JsString) (w : Option Json) :
      strictEqual (some (.str s)) w = true ↔ w = some (.str s) := by
    cases w with
    | none => simp [strictEqual]
    | some w => cases w <;> simp [strictEqual, eq_comm]
  rw [digestEquals, hd.truthy, hd.algorithm, hd.value]
  simp only [Bool.true_and, Bool.and_eq_true, hstr]
  constructor
  · rintro ⟨⟨_, halgorithm⟩, hvalue⟩
    exact ⟨halgorithm, hvalue⟩
  · rintro ⟨halgorithm, hvalue⟩
    refine ⟨⟨?_, halgorithm⟩, hvalue⟩
    cases v with
    | none => cases halgorithm
    | some v =>
      cases v with
      | obj members => rfl
      | _ => cases halgorithm

theorem strictEqual_str_left {v w : Option Json} (h : strictEqual v w = true) (s : JsString) :
    v = some (.str s) ↔ w = some (.str s) := by
  constructor
  · intro hv
    subst hv
    cases w with
    | none => simp [strictEqual] at h
    | some w => cases w <;> simp_all [strictEqual]
  · intro hw
    subst hw
    exact strictEqual_str.mp h

/-- Equal digests are equal to the same recomputed digests. -/
theorem digestEquals_congr {v w : Option Json} (h : digestEquals v w = true) (hex : JsString) :
    digestEquals (some (digestObject hex)) v = true ↔
      digestEquals (some (digestObject hex)) w = true := by
  simp only [digestEquals, Bool.and_eq_true] at h
  obtain ⟨⟨-, halgorithm⟩, hvalue⟩ := h
  rw [digestEquals_digestObject, digestEquals_digestObject, strictEqual_str_left halgorithm,
    strictEqual_str_left hvalue]

theorem calculateObjectDigest_eq_ok {rt : Runtime} {object : Members} {digest : Json}
    (h : calculateObjectDigest rt object = .ok digest) : ∃ hex, digest = digestObject hex := by
  rw [calculateObjectDigest_eq] at h
  obtain ⟨hex, -, rfl⟩ := map_eq_ok_iff.mp h
  exact ⟨hex, rfl⟩

/-- What a target of the payload resolves to. -/
theorem resolveTarget_payload {rt : Runtime} {bundle : Members} {target : Option Json}
    {resolved : Resolved}
    (htype : get target (js "target_type") = some (.str (js "BUNDLE_PAYLOAD")))
    (h : resolveTarget rt bundle target = .ok (some resolved)) :
    ∃ digest, calculatePayloadDigest rt bundle = .ok digest ∧ resolved.digest = some digest := by
  unfold resolveTarget at h
  dsimp only at h
  split at h
  · cases h
  · rw [if_pos (isText_iff.mpr htype)] at h
    cases hdigest : calculatePayloadDigest rt bundle with
    | error message =>
      rw [hdigest] at h
      cases h
    | ok digest =>
      rw [hdigest] at h
      cases h
      exact ⟨digest, rfl, rfl⟩

/-- What a target of another type resolves to carries its declared digest. -/
theorem resolveTarget_object {rt : Runtime} {bundle : Members} {target : Option Json}
    {resolved : Resolved}
    (htype : get target (js "target_type") ≠ some (.str (js "BUNDLE_PAYLOAD")))
    (h : resolveTarget rt bundle target = .ok (some resolved)) :
    resolved.digest = get (some resolved.value) (js "object_digest") := by
  have hno : isText (get target (js "target_type")) (js "BUNDLE_PAYLOAD") = false :=
    Bool.eq_false_iff.mpr (mt isText_iff.mp htype)
  unfold resolveTarget at h
  simp only [hno, Bool.false_eq_true, if_false] at h
  repeat' split at h
  all_goals cases h
  rfl

/-- A search that comes to its end stops at the first match. -/
theorem find?_of_findById {idField : JsString} {id found : Option Json} {items : List Json}
    (h : findById idField id items = .ok found) :
    items.find? (fun item ↦ strictEqual (get (some item) idField) id) = found := by
  induction items with
  | nil => exact Except.ok.inj h
  | cons item rest ih =>
    have hne : item ≠ .null := by
      rintro rfl
      cases h
    have hstep : findById idField id (item :: rest) =
        if strictEqual (get (some item) idField) id then .ok (some item)
        else findById idField id rest := by
      rw [findById]
      exact hne
    rw [hstep] at h
    rw [List.find?_cons]
    split at h
    · next hmatch =>
      rw [hmatch]
      exact Except.ok.inj h
    · next hmatch =>
      rw [Bool.eq_false_iff.mpr hmatch]
      exact ih h

/-- A target of another type than the payload resolves to the object that it names, when this is
no falsy value. -/
theorem resolveTarget_object_iff {rt : Runtime} {bundle : Members} {target : Option Json}
    {found : Option Resolved} (h : resolveTarget rt bundle target = .ok found)
    (htype : get target (js "target_type") ≠ some (.str (js "BUNDLE_PAYLOAD"))) (object : Json) :
    (∃ resolved, found = some resolved ∧ resolved.value = object) ↔
      TargetsObject rt bundle target object ∧ truthy (some object) = true := by
  have hno : isText (get target (js "target_type")) (js "BUNDLE_PAYLOAD") = false :=
    Bool.eq_false_iff.mpr (mt isText_iff.mp htype)
  have hundefined (hget : get target (js "target_type") = none) :
      ¬TargetsObject rt bundle target object := by
    rintro ⟨-, targetType, collection, idField, hname, hcollection, -⟩
    rw [hget] at hname
    cases hname
    have hnone : targetCollection (js "undefined") = none := by decide
    exact absurd (hnone.symm.trans hcollection) nofun
  unfold resolveTarget at h
  simp only [hno, Bool.false_eq_true, if_false] at h
  split at h
  · next hother =>
    cases h
    have hget : get target (js "target_type") = none := by
      cases target with
      | none => rfl
      | some v => cases v <;> first | rfl | simp [isObject] at hother
    exact iff_of_false (by simp) fun hnamed ↦ hundefined hget hnamed.1
  · split at h
    · cases h
    · next targetType hname =>
      split at h
      · next hcollection =>
        split at h
        · cases h
        · cases h
          refine iff_of_false (by simp) ?_
          rintro ⟨⟨-, other, collection, idField, hother, hfound, -⟩, -⟩
          cases hname.symm.trans hother
          exact absurd (hcollection.symm.trans hfound) nofun
      · next collection idField hcollection =>
        have hnames : TargetsObject rt bundle target object ↔
            (itemsOf (member (membersOf (member bundle (js "payload"))) collection)).find?
              (fun item ↦ strictEqual (get (some item) idField) (get target (js "target_id"))) =
                some object := by
          constructor
          · rintro ⟨-, other, collection', idField', hother, hfound, hfirst⟩
            cases hname.symm.trans hother
            cases hcollection.symm.trans hfound
            exact hfirst
          · exact fun hfirst ↦ ⟨htype, targetType, collection, idField, hname, hcollection, hfirst⟩
        rw [hnames]
        split at h
        · cases h
        · next hfind =>
          cases h
          rw [find?_of_findById hfind]
          exact iff_of_false (by simp) (by simp)
        · next first hfind =>
          rw [find?_of_findById hfind]
          split at h
          · next htruthy =>
            cases h
            constructor
            · rintro ⟨resolved, hresolved, rfl⟩
              cases hresolved
              exact ⟨rfl, htruthy⟩
            · rintro ⟨hfirst, -⟩
              exact ⟨_, rfl, Option.some.inj hfirst⟩
          · next hfalsy =>
            cases h
            refine iff_of_false (by simp) ?_
            rintro ⟨hfirst, htruthy⟩
            exact hfalsy (Option.some.inj hfirst ▸ htruthy)

/-- The checks against a key succeed exactly for a signature under it. -/
theorem verifyWithKey_valid_iff {rt : Runtime} {payload proof : Members} {key : Json} :
    verifyWithKey rt payload proof key = .ok .valid ↔ SignsDigest rt payload proof key := by
  constructor
  · intro h
    unfold verifyWithKey at h
    dsimp only at h
    split at h
    · cases h
    · next halgorithms =>
      simp only [Bool.or_eq_true, Bool.not_eq_true', not_or, Bool.not_eq_false, isText_iff]
        at halgorithms
      split at h
      · cases h
      · next hformat =>
        simp only [Bool.not_eq_true', Bool.not_eq_false, isText_iff] at hformat
        split at h
        · cases h
        · cases h
        · next hfrom =>
          split at h
          · cases h
          · cases h
          · next huntil =>
            exact ⟨halgorithms.1, halgorithms.2, hformat, ⟨hfrom, huntil⟩,
              checkSignature_valid_iff.mp (Except.ok.inj h)⟩
  · intro h
    have hvalid := checkSignature_valid_iff.mpr h.signature
    simp only [verifyWithKey, isText_iff.mpr h.algorithm, isText_iff.mpr h.keyAlgorithm,
      isText_iff.mpr h.keyFormat, Bool.not_true, Bool.or_self, Bool.false_eq_true, if_false,
      h.admits.notBefore, h.admits.notAfter, hvalid]

/-- The checks against an issuer, when they come to their end, succeed exactly for a signature
under the key that the proof names. -/
theorem verifyWithIssuer_valid_iff {rt : Runtime} {payload proof : Members} {issuers : List Json}
    (hreturns : Returns (verifyWithIssuer rt payload proof (issuerOf issuers proof))) :
    verifyWithIssuer rt payload proof (issuerOf issuers proof) = .ok .valid ↔
      ∃ key, NamesIssuerKey issuers proof key ∧ SignsDigest rt payload proof key := by
  constructor
  · intro h
    unfold verifyWithIssuer at h
    split at h
    · next method hmethod =>
      split at h
      · cases h
      · next issuerId keyId hsplit =>
        obtain ⟨rfl, hissuerId, hkeyId, hsharp⟩ := splitVerificationMethod_eq_some.mp hsplit
        split at h
        · cases h
        · next hmatch =>
          simp only [Bool.or_eq_true, Bool.not_eq_true', not_or, Bool.not_eq_false, isText_iff]
            at hmatch
          obtain ⟨href, hid⟩ := hmatch
          obtain ⟨issuer, hissuer⟩ : ∃ issuer, issuerOf issuers proof = some issuer := by
            cases hfound : issuerOf issuers proof with
            | none => simp [hfound, get] at hid
            | some issuer => exact ⟨issuer, rfl⟩
          rw [hissuer, Option.getD_some] at h
          split at h
          · cases h
          · cases h
          · next key hkey =>
            unfold findKey at hkey
            split at hkey
            · cases hkey
            · cases hkey
            · next keys hkeys =>
              rw [issuerOf, href] at hissuer
              exact ⟨key, ⟨issuerId, keyId, issuer, keys, href, hmethod, hissuerId, hkeyId, hsharp,
                hissuer, hkeys, find?_of_findById hkey⟩, verifyWithKey_valid_iff.mp h⟩
            · cases hkey
    · cases h
  · rintro ⟨key, ⟨issuerId, keyId, issuer, keys, href, hmethod, hissuerId, hkeyId, hsharp, hissuer,
      hkeys, hkey⟩, hsigns⟩
    have hsplit : splitVerificationMethod (issuerId ++ js "#" ++ keyId) = some (issuerId, keyId) :=
      splitVerificationMethod_eq_some.mpr ⟨rfl, hissuerId, hkeyId, hsharp⟩
    have hid := List.find?_some hissuer
    rw [strictEqual_str] at hid
    have hfirst : issuerOf issuers proof = some issuer := by rw [issuerOf, href, hissuer]
    simp only [verifyWithIssuer, hmethod, hsplit, hfirst, href, hid, isText, decide_true,
      Bool.not_true, Bool.or_self, Bool.false_eq_true, if_false, Option.getD_some, findKey, hkeys]
      at hreturns ⊢
    cases hfind : findById (js "key_id") (some (.str keyId)) keys with
    | error thrown =>
      rw [hfind] at hreturns
      exact absurd hreturns (not_returns_error _)
    | ok found =>
      obtain rfl : found = some key := (find?_of_findById hfind).symm.trans hkey
      exact verifyWithKey_valid_iff.mpr hsigns

/-- A verifying proof is sound exactly when its target is the payload or an object that declares
the digest of its content. -/
theorem targetSound_iff {rt : Runtime} {bundle proof : Members} {issuers : List Json}
    (h : proofResult rt bundle issuers proof = .ok .valid) :
    TargetSound rt bundle (member proof (js "target")) ↔
      ∀ resolved,
        get (member proof (js "target")) (js "target_type") ≠ some (.str (js "BUNDLE_PAYLOAD")) →
        resolveTarget rt bundle (member proof (js "target")) = .ok (some resolved) →
        DeclaresContent rt resolved.value := by
  obtain ⟨⟨found, hfound, hequal⟩, -⟩ := proofResult_valid_iff.mp h
  by_cases htype :
      get (member proof (js "target")) (js "target_type") = some (.str (js "BUNDLE_PAYLOAD"))
  · have hsound : TargetSound rt bundle (member proof (js "target")) := by
      obtain ⟨digest, hdigest, hdeclared⟩ := resolveTarget_payload htype hfound
      refine ⟨found, digest, hfound, ?_, hdeclared ▸ hequal⟩
      rw [recomputedDigest, if_pos (isText_iff.mpr htype), hdigest]
    exact iff_of_true hsound fun _ hno ↦ absurd htype hno
  · have hdeclared := resolveTarget_object htype hfound
    rw [hdeclared] at hequal
    have hno : isText (get (member proof (js "target")) (js "target_type"))
        (js "BUNDLE_PAYLOAD") = false := Bool.eq_false_iff.mpr (mt isText_iff.mp htype)
    constructor
    · rintro ⟨resolved, digest, hresolved, hdigest, hcarried⟩ other _ hother
      rw [hfound] at hresolved hother
      cases hresolved
      cases hother
      rw [recomputedDigest, hno, if_neg Bool.false_ne_true] at hdigest
      obtain ⟨hex, rfl⟩ := calculateObjectDigest_eq_ok hdigest
      exact ⟨_, hdigest, (digestEquals_congr hequal hex).mpr hcarried⟩
    · intro hintact
      obtain ⟨digest, hdigest, hcontent⟩ := hintact found htype hfound
      obtain ⟨hex, rfl⟩ := calculateObjectDigest_eq_ok hdigest
      refine ⟨found, _, hfound, ?_, (digestEquals_congr hequal hex).mp hcontent⟩
      rw [recomputedDigest, hno, if_neg Bool.false_ne_true, hdigest]

/-! ### The result -/

theorem mem_validProofs {rt : Runtime} {bundle : Members} {s : Sections} {entry : ValidProof} :
    entry ∈ validProofs rt bundle s ↔ ∃ proof, .obj proof ∈ s.proofs ∧
      proofResult rt bundle s.issuers proof = .ok .valid ∧
      entry = validEntry (.obj proof) := by
  rw [validProofs, List.mem_filterMap]
  constructor
  · rintro ⟨value, hvalue, h⟩
    cases value with
    | obj proof =>
      dsimp only at h
      split at h
      · next hvalid =>
        obtain rfl := Option.some.inj h
        exact ⟨proof, hvalue, hvalid, rfl⟩
      · cases h
    | _ => cases h
  · rintro ⟨proof, hproof, hvalid, hentry⟩
    refine ⟨.obj proof, hproof, ?_⟩
    dsimp only
    rw [hvalid, hentry]
    rfl

/-- The checks of the content come to the result of every proof. -/
theorem proofResult_returns {rt : Runtime} {bundle proof : Members}
    (h : Returns (verifyContent rt bundle)) (hproof : .obj proof ∈ (sectionsOf bundle).proofs) :
    Returns (proofResult rt bundle (sectionsOf bundle).issuers proof) := by
  unfold verifyContent at h
  have hproofs : Returns (verifyProofs rt bundle (sectionsOf bundle)) :=
    Check.returns_all.mp h _ (by simp)
  obtain ⟨seen, index, hchecks⟩ := Check.returns_of_visit hproofs hproof
  have hsignature := Check.returns_all.mp hchecks
    (verifyProofSignature rt bundle (sectionsOf bundle).issuers proof
      (elementPath (js "$.proofs") index)) (by simp)
  unfold verifyProofSignature at hsignature
  split at hsignature
  · exact absurd hsignature (not_returns_error _)
  · next heq => exact ⟨_, heq⟩
  · next heq => exact ⟨_, heq⟩

/-- What declares a digest that is carried is an object. -/
theorem truthy_of_carried {object : Json} {digest : Option Json}
    (h : digestEquals (get (some object) (js "object_digest")) digest = true) :
    truthy (some object) = true := by
  cases object with
  | obj members => rfl
  | _ => cases h

/-- A proof whose object target carries the declared digest verifies exactly when it is signed
for that digest. -/
theorem proofResult_object_iff {rt : Runtime} {bundle proof : Members} {issuers : List Json}
    (hreturns : Returns (proofResult rt bundle issuers proof)) {object : Json}
    (hobject : TargetsObject rt bundle (member proof (js "target")) object)
    (hcarried : digestEquals (get (some object) (js "object_digest"))
      (get (member proof (js "target")) (js "digest")) = true) :
    proofResult rt bundle issuers proof = .ok .valid ↔
      ∃ key, NamesIssuerKey issuers proof key ∧
        SignsDigest rt (membersOf (member bundle (js "payload"))) proof key := by
  cases hresolve : resolveTarget rt bundle (member proof (js "target")) with
  | error thrown =>
    rw [proofResult, verifySignatureProof, hresolve] at hreturns
    exact absurd hreturns (not_returns_error _)
  | ok found =>
    obtain ⟨resolved, rfl, hvalue⟩ :=
      (resolveTarget_object_iff hresolve hobject.1 object).mpr
        ⟨hobject, truthy_of_carried hcarried⟩
    have hdigest : digestEquals resolved.digest
        (get (member proof (js "target")) (js "digest")) = true := by
      rw [resolveTarget_object hobject.1 hresolve, hvalue]
      exact hcarried
    have hchecks : proofResult rt bundle issuers proof =
        verifyWithIssuer rt (membersOf (member bundle (js "payload"))) proof
          (issuerOf issuers proof) := by
      simp only [proofResult, verifySignatureProof, hresolve, hdigest, Bool.not_true,
        Bool.false_eq_true, if_false]
    rw [hchecks] at hreturns ⊢
    exact verifyWithIssuer_valid_iff hreturns

/-- The listed proofs are sound exactly when no altered object is signed. -/
theorem validProofs_sound {rt : Runtime} {bundle : Members}
    (hreturns : Returns (verifyContent rt bundle)) :
    (∀ entry ∈ validProofs rt bundle (sectionsOf bundle), TargetSound rt bundle entry.target) ↔
      SignedObjectsIntact rt bundle := by
  constructor
  · intro h proof object key hproof hobject hcarried hkey hsigns
    have hvalid := (proofResult_object_iff (proofResult_returns hreturns hproof) hobject
      hcarried).mpr ⟨key, hkey, hsigns⟩
    have hsound : TargetSound rt bundle (member proof (js "target")) :=
      h _ (mem_validProofs.mpr ⟨proof, hproof, hvalid, rfl⟩)
    obtain ⟨⟨found, hfound, -⟩, -⟩ := proofResult_valid_iff.mp hvalid
    obtain ⟨resolved, heq, rfl⟩ :=
      (resolveTarget_object_iff hfound hobject.1 object).mpr ⟨hobject, truthy_of_carried hcarried⟩
    exact (targetSound_iff hvalid).mp hsound resolved hobject.1 (heq ▸ hfound)
  · intro h entry hentry
    obtain ⟨proof, hproof, hvalid, rfl⟩ := mem_validProofs.mp hentry
    refine (targetSound_iff hvalid).mpr fun resolved htype hresolved ↦ ?_
    obtain ⟨⟨found, hfound, hcarried⟩, -⟩ := proofResult_valid_iff.mp hvalid
    obtain rfl : resolved = found :=
      Option.some.inj (Except.ok.inj (hresolved.symm.trans hfound))
    rw [resolveTarget_object htype hresolved] at hcarried
    obtain ⟨hobject, -⟩ :=
      (resolveTarget_object_iff hresolved htype resolved.value).mp ⟨resolved, rfl, rfl⟩
    obtain ⟨key, hkey, hsigns⟩ :=
      (proofResult_object_iff ⟨_, hvalid⟩ hobject hcarried).mp hvalid
    exact h proof resolved.value key hproof hobject hcarried hkey hsigns

/-- The proofs that a result lists: none after an early return. -/
theorem verifyValue_validProofs {rt : Runtime} {bundle : Members} {result : Verification}
    (h : verifyValue rt (.obj bundle) = .ok result) :
    (EnvelopeOk (.obj bundle) ∧ PayloadOk (membersOf (member bundle (js "payload"))) ∧
      Returns (verifyContent rt bundle) ∧
      result.validProofs = validProofs rt bundle (sectionsOf bundle)) ∨
    (¬(EnvelopeOk (.obj bundle) ∧ PayloadOk (membersOf (member bundle (js "payload")))) ∧
      result.validProofs = []) := by
  have hlisted (errors : List Issue) :
      (conclude rt bundle errors).validProofs = validProofs rt bundle (sectionsOf bundle) := by
    unfold conclude
    split <;> rfl
  unfold verifyValue at h
  dsimp only [membersOf] at h
  split at h
  · cases h
  · next issue more henvelope =>
    cases h
    refine .inr ⟨?_, rfl⟩
    rintro ⟨hok, _⟩
    have hclean := clean_verifyEnvelope.mpr hok
    exact absurd (hclean.symm.trans henvelope) nofun
  · next henvelope =>
    split at h
    · cases h
    · next issue more hpayload =>
      cases h
      refine .inr ⟨?_, rfl⟩
      rintro ⟨_, hok⟩
      have hclean := clean_verifyPayload.mpr hok
      exact absurd (hclean.symm.trans hpayload) nofun
    · next hpayload =>
      obtain ⟨errors, hcontent, rfl⟩ := map_eq_ok_iff.mp h
      exact .inl ⟨clean_verifyEnvelope.mp henvelope, clean_verifyPayload.mp hpayload,
        ⟨errors, hcontent⟩, hlisted errors⟩

/-- Every listed proof is sound exactly when, on a bundle that reaches the proofs, no proof is
signed for the digest that an altered object declares. -/
theorem valid_proofs_sound_iff {rt : Runtime} {input : Json} {result : Verification}
    (h : verifyBundle rt input = .ok result) :
    (∀ rt' bundle, readBundle rt input = .ok (rt', .obj bundle) →
      ∀ entry ∈ result.validProofs, TargetSound rt' bundle entry.target) ↔
    ∀ rt' bundle, readBundle rt input = .ok (rt', .obj bundle) → EnvelopeOk (.obj bundle) →
      PayloadOk (membersOf (member bundle (js "payload"))) → SignedObjectsIntact rt' bundle := by
  unfold verifyBundle at h
  cases hread : readBundle rt input with
  | error issue => exact iff_of_true (fun _ _ ↦ nofun) fun _ _ ↦ nofun
  | ok read =>
    obtain ⟨rt', value⟩ := read
    rw [hread] at h
    simp only [Except.ok.injEq, Prod.mk.injEq]
    cases value with
    | obj bundle =>
      have hiff : (∀ entry ∈ result.validProofs, TargetSound rt' bundle entry.target) ↔
          (EnvelopeOk (.obj bundle) → PayloadOk (membersOf (member bundle (js "payload"))) →
            SignedObjectsIntact rt' bundle) := by
        rcases verifyValue_validProofs h with
          ⟨henvelope, hpayload, hcontent, hlisted⟩ | ⟨hno, hlisted⟩
        · rw [hlisted, validProofs_sound hcontent]
          exact ⟨fun h _ _ ↦ h, fun h ↦ h henvelope hpayload⟩
        · rw [hlisted]
          exact iff_of_true (fun _ ↦ nofun) fun henvelope hpayload ↦
            absurd ⟨henvelope, hpayload⟩ hno
      constructor
      · intro hsound rt'' bundle' heq
        obtain ⟨rfl, heq⟩ := heq
        cases heq
        exact hiff.mp (hsound rt' bundle ⟨rfl, rfl⟩)
      · intro hintact rt'' bundle' heq
        obtain ⟨rfl, heq⟩ := heq
        cases heq
        exact hiff.mpr (hintact rt' bundle ⟨rfl, rfl⟩)
    | _ => exact iff_of_true (fun _ _ ↦ nofun) fun _ _ ↦ nofun

/-! ### An altered event -/

/-- The sample event with another subject under its old digest. -/
def tamperedEvent : Json :=
  .obj ((membersOf (some (sampleEvent "e1" "SETTLEMENT" "commerce.refund.settled"
    "SYSTEM_OF_RECORD" [jsonText "v1"] sampleEventHash))).map fun m ↦
      if m.1 = js "subject" then (m.1, sampleEntity "refund" "re_100") else m)

/-- The settled refund with the altered event. -/
def tamperedBundle : Members :=
  membersOf (some (sampleBundle [tamperedEvent] [sampleEvidence] [sampleRelationship]
    [sampleProof]))

/-- SHA-256 of the altered texts. -/
def tamperedHashes : List (Nat × String) :=
  [(410, "b6e819c703499104d09b9d3939ccb07ecc9e2fcfef80f38fd44db02b470184bb"),
    (1857, "5e299a792f59291a7940720def372b658737e6200501324f9c81da5ae6c432b5")]

/-- The sample host on the altered texts as well. -/
def tamperedRuntime : Runtime :=
  { sampleRuntime with
    sha256 := fun bytes ↦
      match tamperedHashes.find? fun entry ↦ entry.1 = bytes.length with
      | some entry => digestOf entry.2
      | none => sampleRuntime.sha256 bytes }

private theorem tamperedFacts :
    (verifyBundle tamperedRuntime (.obj tamperedBundle)).toOption.any (fun result ↦
      result.validProofs.any fun entry ↦
        decide ¬TargetSound tamperedRuntime tamperedBundle entry.target) = true := by
  decide +kernel

private theorem tampered_returns :
    Returns (verifyBundle tamperedRuntime (.obj tamperedBundle)) := by
  have hfacts := tamperedFacts
  cases hverify : verifyBundle tamperedRuntime (.obj tamperedBundle) with
  | error thrown => simp [hverify, Except.toOption] at hfacts
  | ok result => exact ⟨result, rfl⟩

/-- The proof of the altered event is listed although its digest is not the one of the event. -/
theorem tamperedEvent_listed :
    ∃ result, verifyBundle tamperedRuntime (.obj tamperedBundle) = .ok result ∧
      ∃ entry ∈ result.validProofs,
        ¬TargetSound tamperedRuntime tamperedBundle entry.target := by
  obtain ⟨result, hverify⟩ := tampered_returns
  have hfacts := tamperedFacts
  rw [hverify] at hfacts
  obtain ⟨entry, hentry, hunsound⟩ := List.any_eq_true.mp hfacts
  exact ⟨result, hverify, entry, hentry, of_decide_eq_true hunsound⟩

theorem valid_proofs_sound_iff_tampered :
    ∃ result, verifyBundle tamperedRuntime (.obj tamperedBundle) = .ok result ∧
      ((∀ rt' bundle,
        readBundle tamperedRuntime (.obj tamperedBundle) = .ok (rt', .obj bundle) →
          ∀ entry ∈ result.validProofs, TargetSound rt' bundle entry.target) ↔
      ∀ rt' bundle, readBundle tamperedRuntime (.obj tamperedBundle) = .ok (rt', .obj bundle) →
        EnvelopeOk (.obj bundle) → PayloadOk (membersOf (member bundle (js "payload"))) →
        SignedObjectsIntact rt' bundle) := by
  obtain ⟨result, hverify⟩ := tampered_returns
  exact ⟨result, hverify, valid_proofs_sound_iff hverify⟩

end TimeProofs.Core
