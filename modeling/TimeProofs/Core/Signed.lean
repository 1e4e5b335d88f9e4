import TimeProofs.Base.Only
import TimeProofs.Core.Acceptance

/-!
# What a verified proof stands for

A proof of a bundle verifies exactly when its target names one object, the digest it carries is
the recomputed one, and its signature verifies under the one key that its verification method
names of the one issuer that it names.
-/

namespace TimeProofs.Core

open TimeProofs.Base TimeProofs.Json

/-- What a target names in a bundle, and the content that its digest covers. -/
inductive Names (bundle : Members) (target : Option Json) : Json → Json → Prop where
  | payload (htype : get target (js "target_type") = some (.str (js "BUNDLE_PAYLOAD"))) :
      Names bundle target (.obj (membersOf (member bundle (js "payload"))))
        (.obj (membersOf (member bundle (js "payload"))))
  | object {targetType collection idField id : JsString} {members : Members}
      (htype : get target (js "target_type") = some (.str targetType))
      (hcollection : targetCollection targetType = some (collection, idField))
      (hid : get target (js "target_id") = some (.str id))
      (honly : IsOnly (fun object ↦ get (some object) idField = some (.str id))
        (itemsOf (member (membersOf (member bundle (js "payload"))) collection))
        (.obj members)) :
      Names bundle target (.obj members) (.obj (withoutMember members (js "object_digest")))

/-- SHA-256 of the canonical form of a value, in hexadecimal. -/
def hashOf (rt : Runtime) (v : Json) : Except JsString JsString :=
  (canonicalizeBytes rt.numberToString v).map (sha256Hex rt)

/-- A key verifies the signature of a proof over the given bytes. -/
def SignedBy (rt : Runtime) (key : Json) (proof : Members) (input : List UInt8) : Prop :=
  ∃ publicKey signature, rt.createPublicKey (get (some key) (js "public_key")) = .ok publicKey ∧
    publicKey.asymmetricKeyType = js "ed25519" ∧
    base64urlDecodeCanonical (member proof (js "proof_value")) = .ok signature ∧
    rt.verify input publicKey signature = .ok true

/-- The signing input for a target type and a recomputed digest. -/
def signingInput (rt : Runtime) (targetType : Option Json) (hex : JsString) :
    Except JsString (List UInt8) :=
  buildSignatureInput rt (some (.str (js "0.1"))) (some (.str (js "TP-JSON-0.1"))) targetType
    (some (digestObject hex))

/-- The validity interval of a key contains the time of a proof. -/
structure KeyAdmits (rt : Runtime) (key : Json) (proof : Members) : Prop where
  notBefore : outsideBound rt (get (some key) (js "valid_from")) (member proof (js "created_at"))
    (fun created limit ↦ timeBefore created limit) = .ok false
  notAfter : outsideBound rt (get (some key) (js "valid_until")) (member proof (js "created_at"))
    (fun created limit ↦ timeBefore limit created) = .ok false

/-- The issuer and the key that a proof names, each the only one of its name. -/
structure Signer (issuers : List Json) (proof : Members) (issuerId keyId : JsString)
    (issuerObject keyObject : Json) : Prop where
  issuerRef : member proof (js "issuer_ref") = some (.str issuerId)
  method : member proof (js "verification_method") = some (.str (issuerId ++ js "#" ++ keyId))
  lastSharp : 0x23 ∉ keyId
  issuer : IsOnly (fun candidate ↦ get (some candidate) (js "issuer_id") = some (.str issuerId))
    issuers issuerObject
  key : IsOnly (fun candidate ↦ get (some candidate) (js "key_id") = some (.str keyId))
    (itemsOf (get (some issuerObject) (js "keys"))) keyObject

/-- A proof that carries the signature of its signer over the recomputed digest of what its
target names. -/
structure Signed (rt : Runtime) (bundle proof : Members) (object content : Json)
    (hex issuerId keyId : JsString) (issuer key : Json) : Prop where
  names : Names bundle (member proof (js "target")) object content
  hash : hashOf rt content = .ok hex
  digest : IsDigest (get (member proof (js "target")) (js "digest")) hex
  signer : Signer (sectionsOf bundle).issuers proof issuerId keyId issuer key
  admits : KeyAdmits rt key proof
  signature : ∃ input,
    signingInput rt (get (member proof (js "target")) (js "target_type")) hex = .ok input ∧
      SignedBy rt key proof input

/-- Among objects with distinct ids, the first match is the only one. -/
theorem findById_eq_some {idField : JsString} (id : JsString) {items : List Json}
    (hobj : ∀ item ∈ items, isObject (some item) = true) (hids : (idsOf idField items).Nodup)
    (item : Json) :
    findById idField (some (.str id)) items = .ok (some item) ↔
      IsOnly (fun object ↦ get (some object) idField = some (.str id)) items item := by
  have hfind : findById idField (some (.str id)) items =
      .ok (items.find? fun object ↦ strictEqual (get (some object) idField) (some (.str id))) := by
    clear hids
    induction items with
    | nil => rfl
    | cons object rest ih =>
      obtain ⟨ms, hms⟩ := isObject_iff.mp (hobj object (by simp))
      obtain rfl := Option.some.inj hms
      rw [findById, List.find?_cons]
      · split
        · next h => simp [h]
        · next h => simp [h, ih fun x hx ↦ hobj x (by simp [hx])]
      · nofun
  rw [hfind, Except.ok.injEq]
  constructor
  · intro h
    have hp := List.find?_some h
    rw [strictEqual_str] at hp
    refine (isOnly_of_nodup hids (List.mem_of_find?_eq_some h)
      (stringId_eq_some.mpr hp)).congr fun y _ ↦ stringId_eq_some
  · exact fun h ↦ find?_eq_some_of_isOnly (h.congr fun y _ ↦ strictEqual_str.symm)

/-- The issuer found for a proof is the only one of the id it names. -/
theorem issuerOf_eq_some {issuers : List Json} {proof : Members} {issuerId : JsString}
    {issuer : Json} (hids : (idsOf (js "issuer_id") issuers).Nodup)
    (href : member proof (js "issuer_ref") = some (.str issuerId)) :
    issuerOf issuers proof = some issuer ↔
      IsOnly (fun candidate ↦ get (some candidate) (js "issuer_id") = some (.str issuerId))
        issuers issuer := by
  rw [issuerOf, href]
  constructor
  · intro h
    have hp := List.find?_some h
    rw [strictEqual_str] at hp
    exact (isOnly_of_nodup hids (List.mem_of_find?_eq_some h)
      (stringId_eq_some.mpr hp)).congr fun y _ ↦ stringId_eq_some
  · exact fun h ↦ find?_eq_some_of_isOnly (h.congr fun y _ ↦ strictEqual_str.symm)

/-- A verification method is split at its last number sign. -/
theorem splitVerificationMethod_eq_some {method issuerId keyId : JsString} :
    splitVerificationMethod method = some (issuerId, keyId) ↔
      method = issuerId ++ js "#" ++ keyId ∧ issuerId ≠ [] ∧ keyId ≠ [] ∧ 0x23 ∉ keyId := by
  have hsharp : js "#" = [0x23] := by decide
  unfold splitVerificationMethod
  dsimp only
  constructor
  · have hsplit := List.takeWhile_append_dropWhile
      (p := fun c : CodeUnit ↦ decide (c ≠ 0x23)) (l := method.reverse)
    have hkey : 0x23 ∉ method.reverse.takeWhile fun c ↦ decide (c ≠ 0x23) := fun hmem ↦ by
      simpa using List.mem_takeWhile_imp hmem
    have hhead (c : CodeUnit) (rest : JsString)
        (hd : method.reverse.dropWhile (fun c ↦ decide (c ≠ 0x23)) = c :: rest) : c = 0x23 := by
      have := List.head_dropWhile_not (fun c : CodeUnit ↦ decide (c ≠ 0x23)) (l := method.reverse)
        (by rw [hd]; nofun)
      simp only [hd, List.head_cons] at this
      simpa using this
    revert hsplit hkey hhead
    generalize method.reverse.takeWhile (fun c ↦ decide (c ≠ 0x23)) = key
    generalize method.reverse.dropWhile (fun c ↦ decide (c ≠ 0x23)) = rest
    intro hsplit hkey hhead h
    split at h
    · next hne =>
      obtain ⟨rfl, rfl⟩ := Prod.mk.inj (Option.some.inj h)
      refine ⟨?_, hne.1, hne.2, by simpa using hkey⟩
      cases rest with
      | nil => exact absurd rfl hne.1
      | cons c rest =>
        obtain rfl := hhead c rest rfl
        rw [← List.reverse_reverse method, ← hsplit, hsharp]
        simp
    · cases h
  · rintro ⟨rfl, hi, hk, hmem⟩
    have hall : ∀ c ∈ keyId.reverse, decide (c ≠ 0x23) = true := fun c hc ↦ by
      rw [List.mem_reverse] at hc
      simp only [decide_eq_true_eq]
      rintro rfl
      exact hmem hc
    have htake : (issuerId ++ js "#" ++ keyId).reverse.takeWhile (fun c ↦ decide (c ≠ 0x23)) =
        keyId.reverse := by
      rw [List.reverse_append, List.takeWhile_append_of_pos hall]
      simp [hsharp]
    have hdrop : (issuerId ++ js "#" ++ keyId).reverse.dropWhile (fun c ↦ decide (c ≠ 0x23)) =
        0x23 :: issuerId.reverse := by
      rw [List.reverse_append, List.dropWhile_append_of_pos hall]
      simp [hsharp]
    rw [htake, hdrop]
    simp [hi, hk]

/-- The objects of a target's collection carry their digest under distinct ids. -/
theorem ContentOk.collection {rt : Runtime} {bundle : Members} (h : ContentOk rt bundle)
    {targetType collection idField : JsString}
    (hcollection : targetCollection targetType = some (collection, idField)) :
    (∀ item ∈ itemsOf (member (membersOf (member bundle (js "payload"))) collection),
      ∃ members, item = .obj members ∧ DigestMatches rt members) ∧
    (idsOf idField
      (itemsOf (member (membersOf (member bundle (js "payload"))) collection))).Nodup := by
  have hobject (keys : List JsString) (item : Json) (hkeys : exactKeys (some item) keys = true)
      (hdigest : DigestMatches rt (membersOf (some item))) :
      ∃ members, item = .obj members ∧ DigestMatches rt members := by
    obtain ⟨ms, hms, -⟩ := exactKeys_iff.mp hkeys
    obtain rfl := Option.some.inj hms
    exact ⟨ms, rfl, hdigest⟩
  have hids := h.objectIds
  rw [Sections.objectIds, List.nodup_append, List.nodup_append] at hids
  unfold targetCollection at hcollection
  split_ifs at hcollection <;> cases hcollection
  · exact ⟨fun item hitem ↦ hobject _ item (h.events item hitem).keys (h.events item hitem).digest,
      hids.1⟩
  · exact ⟨fun item hitem ↦
      hobject _ item (h.evidence item hitem).keys (h.evidence item hitem).digest, hids.2.1.1⟩
  · exact ⟨fun item hitem ↦ hobject _ item (h.relationships item hitem).keys
      (h.relationships item hitem).digest, hids.2.1.2.1⟩

/-- The payload of an accepted bundle is an object. -/
theorem EnvelopeOk.payload_eq {bundle : Members} (h : EnvelopeOk (.obj bundle)) :
    member bundle (js "payload") = some (.obj (membersOf (member bundle (js "payload")))) := by
  obtain ⟨ms, hms⟩ := isObject_iff.mp h.payload
  simp only [get] at hms
  simp [hms, membersOf]

/-- A digest exists exactly for encodable data. -/
theorem digestValue_returns_iff {rt : Runtime} {v : Json} :
    (∃ digest, digestValue rt v = .ok digest) ↔ Encodable v := by
  simp only [digestValue, map_eq_ok_iff, canonicalizeBytes_eq_ok_iff]
  constructor
  · rintro ⟨_, _, ⟨hv, _⟩, _⟩
    exact hv
  · intro hv
    exact ⟨_, _, ⟨hv, rfl⟩, rfl⟩

theorem EnvelopeOk.payloadDigest_iff {rt : Runtime} {bundle : Members}
    (h : EnvelopeOk (.obj bundle)) :
    (∃ digest, calculatePayloadDigest rt bundle = .ok digest) ↔
      Encodable (.obj (membersOf (member bundle (js "payload")))) := by
  rw [calculatePayloadDigest, h.payload_eq, Option.getD_some, digestValue_returns_iff]
  rfl

/-- The payload digest is the hash of the payload. -/
theorem calculatePayloadDigest_eq {rt : Runtime} {bundle : Members}
    (h : EnvelopeOk (.obj bundle)) :
    calculatePayloadDigest rt bundle =
      (hashOf rt (.obj (membersOf (member bundle (js "payload"))))).map digestObject := by
  rw [calculatePayloadDigest, h.payload_eq, Option.getD_some, digestValue, hashOf, membersOf]
  cases canonicalizeBytes rt.numberToString
    (.obj (membersOf (member bundle (js "payload")))) <;> rfl

/-- The types of targets other than the payload are those of the three collections. -/
theorem targetCollection_of_targetType {targetType : JsString} (h : targetType ∈ targetTypes)
    (hne : targetType ≠ js "BUNDLE_PAYLOAD") :
    ∃ collection idField, targetCollection targetType = some (collection, idField) := by
  simp only [targetTypes, List.mem_cons, List.not_mem_nil, or_false] at h
  rcases h with rfl | rfl | rfl | rfl
  · exact absurd rfl hne
  · exact ⟨_, _, rfl⟩
  · exact ⟨_, _, by rw [targetCollection, if_neg (by decide), if_pos rfl]⟩
  · exact ⟨_, _, by rw [targetCollection, if_neg (by decide), if_neg (by decide), if_pos rfl]⟩

theorem targetCollection_payload : targetCollection (js "BUNDLE_PAYLOAD") = none := by decide

/-- A target resolves to an object with the digest that it carries exactly when that digest is
the recomputed one of what it names. -/
theorem resolveTarget_iff {rt : Runtime} {bundle : Members} {target : Option Json}
    (h : ContentOk rt bundle) (ht : TargetOk target) :
    (∃ r, resolveTarget rt bundle target = .ok (some r) ∧
      digestEquals r.digest (get target (js "digest")) = true) ↔
    ∃ object content hex, Names bundle target object content ∧ hashOf rt content = .ok hex ∧
      IsDigest (get target (js "digest")) hex := by
  obtain ⟨hex', hd, -⟩ := validDigest_iff.mp ht.digest
  obtain ⟨targetType, htype, hget⟩ := isOneOf_iff.mp ht.targetType
  have hobj : isObject target = true := by
    obtain ⟨ms, hms, -⟩ := exactKeys_iff.mp ht.keys
    exact isObject_iff.mpr ⟨ms, hms⟩
  rw [resolveTarget]
  simp only [hobj, hget, Bool.not_true, Bool.false_and, Bool.false_eq_true, if_false]
  by_cases hpay : targetType = js "BUNDLE_PAYLOAD"
  · subst hpay
    obtain ⟨digest, hdigest⟩ := h.payloadDigest
    have hcalc := hdigest
    rw [calculatePayloadDigest_eq h.envelope] at hcalc
    obtain ⟨hex, hhash, rfl⟩ := map_eq_ok_iff.mp hcalc
    simp only [isText, decide_true, if_true, hdigest]
    constructor
    · rintro ⟨r, hr, heq⟩
      cases hr
      obtain rfl := (digestEquals_iff (isDigest_digestObject hex) hd).mp heq
      exact ⟨_, _, hex, .payload hget, hhash, hd⟩
    · rintro ⟨object, content, hex₂, hnames, hhash₂, hd₂⟩
      refine ⟨_, rfl, (digestEquals_iff (isDigest_digestObject hex) hd₂).mpr ?_⟩
      cases hnames with
      | payload _ =>
        rw [hhash] at hhash₂
        exact Except.ok.inj hhash₂
      | object htype' hcollection _ _ =>
        rw [hget] at htype'
        cases htype'
        simp [targetCollection_payload] at hcollection
  · obtain ⟨collection, idField, hcollection⟩ := targetCollection_of_targetType htype hpay
    have hnot : isText (some (.str targetType)) (js "BUNDLE_PAYLOAD") = false := by
      simp [isText, hpay]
    obtain ⟨id, hid, -⟩ := isNonEmptyString_iff.mp (ht.targetId (by rw [hget]; exact hnot))
    obtain ⟨hitems, hids⟩ := h.collection hcollection
    have hobj : ∀ item ∈ itemsOf (member (membersOf (member bundle (js "payload"))) collection),
        isObject (some item) = true := fun item hitem ↦ by
      obtain ⟨ms, rfl, -⟩ := hitems item hitem
      rfl
    have hfind := findById_eq_some id hobj hids
    simp only [hnot, Bool.false_eq_true, if_false, textOf, toText, hcollection, hid]
    constructor
    · rintro ⟨r, hr, heq⟩
      split at hr
      · cases hr
      · cases hr
      · next object hobject =>
        have honly := (hfind object).mp hobject
        obtain ⟨ms, rfl, hex, hhash, hdeclared⟩ := hitems object honly.mem
        split at hr
        · cases hr
          obtain rfl := (digestEquals_iff hdeclared hd).mp heq
          exact ⟨_, _, hex, .object hget hcollection hid honly, hhash, hd⟩
        · cases hr
    · rintro ⟨object, content, hex, hnames, hhash, hd₂⟩
      cases hnames with
      | payload htype' =>
        rw [hget] at htype'
        cases htype'
        exact absurd rfl hpay
      | @object targetType' collection' idField' id' members htype' hcollection' hid' honly =>
        rw [hget] at htype'
        cases htype'
        rw [hcollection] at hcollection'
        cases hcollection'
        rw [hid] at hid'
        cases hid'
        obtain ⟨ms, hms, hex', hhash', hdeclared⟩ := hitems _ honly.mem
        cases hms
        rw [(hfind _).mpr honly]
        refine ⟨_, rfl, (digestEquals_iff hdeclared hd₂).mpr ?_⟩
        have : hashOf rt (.obj (withoutMember members (js "object_digest"))) = .ok hex' := hhash'
        rw [hhash] at this
        exact (Except.ok.inj this).symm

/-- A digest object has the two members of the computed one, in some order. -/
theorem IsDigest.perm {v : Option Json} {hex : JsString} (h : IsDigest v hex) :
    ∃ ms, v = some (.obj ms) ∧
      ms.Perm [(js "algorithm", .str (js "sha-256")), (js "value", .str hex)] := by
  obtain ⟨ms, rfl, hkeys⟩ := exactKeys_iff.mp h.keys
  have halgorithm := mem_of_member_eq h.algorithm
  have hvalue := mem_of_member_eq h.value
  have hne : js "algorithm" ≠ js "value" := by decide
  refine ⟨ms, rfl, List.Perm.symm ?_⟩
  refine (List.subperm_of_subset ?_ ?_).perm_of_length_le ?_
  · simp [hne]
  · simp [halgorithm, hvalue]
  · have := hkeys.length_eq
    rw [List.length_map] at this
    rw [this]
    rfl

/-- The canonical text of a digest object does not depend on the order of its members. -/
theorem IsDigest.canonicalText {v : Json} {hex : JsString} (h : IsDigest (some v) hex)
    (print : Float → JsString) :
    canonicalText print v = canonicalText print (digestObject hex) := by
  obtain ⟨ms, hms, hperm⟩ := h.perm
  obtain rfl := Option.some.inj hms
  have hne : js "algorithm" ≠ js "value" := by decide
  have hnodup : (ms.map Prod.fst).Nodup :=
    (hperm.map Prod.fst).nodup_iff.mpr (by simp [hne])
  rw [digestObject, canonicalText_obj, canonicalText_obj,
    Json.sortMembers_eq_of_perm hnodup hperm]

theorem IsDigest.encodable {v : Json} {hex : JsString} (h : IsDigest (some v) hex) :
    Encodable v ↔ Encodable (digestObject hex) := by
  obtain ⟨ms, hms, hperm⟩ := h.perm
  obtain rfl := Option.some.inj hms
  rw [digestObject, encodable_obj, encodable_obj]
  exact forall_congr' fun m ↦ imp_congr_left hperm.mem_iff

/-- A signing input is made of the canonical texts of its parts. -/
theorem canonicalText_signatureInput {print : Float → JsString}
    {specVersion profile targetType digest digest' : Json}
    (h : canonicalText print digest = canonicalText print digest') :
    canonicalText print (signatureInputObject specVersion profile targetType digest) =
      canonicalText print (signatureInputObject specVersion profile targetType digest') := by
  rw [signatureInputObject, canonicalText, signatureInputObject, canonicalText]
  simp only [canonicalMembers, h]

/-- A digest object is signed as the computed one. -/
theorem buildSignatureInput_digest {rt : Runtime} {v : Option Json} {hex : JsString}
    (h : IsDigest v hex) (specVersion profile targetType : Option Json) (input : List UInt8) :
    buildSignatureInput rt specVersion profile targetType v = .ok input ↔
      buildSignatureInput rt specVersion profile targetType (some (digestObject hex)) =
        .ok input := by
  obtain ⟨ms, rfl, -⟩ := h.perm
  cases specVersion with
  | none => cases profile <;> simp [buildSignatureInput, definedMember, bind, Except.bind]
  | some specVersion =>
    cases profile with
    | none => simp [buildSignatureInput, definedMember, bind, Except.bind]
    | some profile =>
      cases targetType with
      | none => simp [buildSignatureInput, definedMember, bind, Except.bind]
      | some targetType =>
        simp only [buildSignatureInput, definedMember, bind, Except.bind,
          canonicalizeBytes_eq_ok_iff]
        rw [canonicalText_signatureInput (h.canonicalText rt.numberToString)]
        refine and_congr_left fun _ ↦ ?_
        simp only [signatureInputObject, encodable_obj, List.forall_mem_cons, h.encodable]

/-! ### Verified proofs -/

/-- The guarded part of the verification succeeds exactly with a signature over the signing input
for the digest that the proof carries. -/
theorem checkSignature_valid_iff {rt : Runtime} {payload proof : Members} {key : Json} :
    checkSignature rt payload proof key = .valid ↔
      ∃ input, buildSignatureInput rt (member payload (js "spec_version"))
          (member payload (js "profile")) (get (member proof (js "target")) (js "target_type"))
          (get (member proof (js "target")) (js "digest")) = .ok input ∧
        SignedBy rt key proof input := by
  constructor
  · intro h
    unfold checkSignature at h
    dsimp only at h
    split at h
    · cases h
    · next input hbuilt =>
      split at h
      · cases h
      · next publicKey hkey =>
        split at h
        · cases h
        · next htype =>
          split at h
          · cases h
          · next signature hsignature =>
            split at h
            · cases h
            · next hverify =>
              exact ⟨input, hbuilt, publicKey, signature, hkey, not_not.mp htype, hsignature,
                hverify⟩
            · cases h
  · rintro ⟨input, hbuilt, publicKey, signature, hkey, htype, hsignature, hverify⟩
    simp [checkSignature, hbuilt, hkey, htype, hsignature, hverify]

/-- On a payload of the profile that is a signature over the recomputed digest. -/
theorem checkSignature_iff {rt : Runtime} {payload proof : Members} {key : Json}
    (hp : PayloadOk payload) {hex : JsString}
    (hd : IsDigest (get (member proof (js "target")) (js "digest")) hex) :
    checkSignature rt payload proof key = .valid ↔
      ∃ input, signingInput rt (get (member proof (js "target")) (js "target_type")) hex =
        .ok input ∧ SignedBy rt key proof input := by
  rw [checkSignature_valid_iff, hp.specVersion, hp.profile]
  exact exists_congr fun input ↦ and_congr_left fun _ ↦ buildSignatureInput_digest hd _ _ _ input

/-- The checks against a key that the profile permits. -/
theorem verifyWithKey_iff {rt : Runtime} {payload proof : Members} {key : Json}
    (hkey : KeyOk key) (halgorithm : isText (member proof (js "algorithm")) (js "Ed25519") = true) :
    verifyWithKey rt payload proof key = .ok .valid ↔
      KeyAdmits rt key proof ∧ checkSignature rt payload proof key = .valid := by
  have hkeyAlgorithm := isText_iff.mpr hkey.algorithm
  have hformat := isText_iff.mpr hkey.format
  rw [verifyWithKey]
  simp only [halgorithm, hkeyAlgorithm, hformat, Bool.not_true, Bool.or_self, Bool.false_eq_true,
    if_false]
  constructor
  · intro h
    split at h
    · cases h
    · cases h
    · next hfrom =>
      split at h
      · cases h
      · cases h
      · next huntil => exact ⟨⟨hfrom, huntil⟩, Except.ok.inj h⟩
  · rintro ⟨⟨hfrom, huntil⟩, h⟩
    simp only [hfrom, huntil, h]

/-- The checks of a proof against the issuer and the key that it names. -/
theorem verifyWithIssuer_iff {rt : Runtime} (payload : Members) {proof : Members}
    {issuers : List Json} (hissuers : ∀ issuer ∈ issuers, IssuerOk rt issuer)
    (hids : (idsOf (js "issuer_id") issuers).Nodup)
    (hp : ProofOk (idsOf (js "issuer_id") issuers) proof) :
    verifyWithIssuer rt payload proof (issuerOf issuers proof) = .ok .valid ↔
      ∃ issuerId keyId issuer key, Signer issuers proof issuerId keyId issuer key ∧
        KeyAdmits rt key proof ∧ checkSignature rt payload proof key = .valid := by
  obtain ⟨issuerId, hmem, href⟩ := isOneOf_iff.mp hp.issuerRef
  obtain ⟨issuer, hissuer, hid⟩ := mem_idsOf.mp hmem
  have honly : IsOnly (fun candidate ↦ get (some candidate) (js "issuer_id") =
      some (.str issuerId)) issuers issuer :=
    (isOnly_of_nodup hids hissuer (stringId_eq_some.mpr hid)).congr fun y _ ↦ stringId_eq_some
  have hne : issuerId ≠ [] := by
    obtain ⟨s, hs, hs'⟩ := isNonEmptyString_iff.mp (hissuers issuer hissuer).issuerId
    rw [hid] at hs
    cases hs
    exact hs'
  obtain ⟨keys, hkeys, hkeysOk, hkeyIds⟩ := (hissuers issuer hissuer).keyList
  have hkeyObjects : ∀ key ∈ keys, isObject (some key) = true := fun key hkey ↦
    isObject_iff.mpr (isObject_of_allowedKeys (hkeysOk key hkey).keys)
  obtain ⟨method, hmethod⟩ : ∃ method, member proof (js "verification_method") =
      some (.str method) := by
    have := hp.method
    unfold isVerificationMethod at this
    split at this
    · exact ⟨_, by assumption⟩
    · cases this
  rw [verifyWithIssuer, (issuerOf_eq_some hids href).mpr honly]
  simp only [hmethod, href]
  constructor
  · intro h
    split at h
    · cases h
    · next issuerId' keyId hsplit =>
      obtain ⟨rfl, -, -, hsharp⟩ := splitVerificationMethod_eq_some.mp hsplit
      split at h
      · cases h
      · next hmatch =>
        simp only [Bool.or_eq_true, Bool.not_eq_true', not_or, Bool.not_eq_false, isText_iff,
          Option.some.injEq, Json.str.injEq] at hmatch
        obtain ⟨rfl, -⟩ := hmatch
        simp only [Option.getD_some, findKey, hkeys] at h
        split at h
        · cases h
        · cases h
        · next key hfind =>
          have hkey := (findById_eq_some _ hkeyObjects hkeyIds _).mp hfind
          exact ⟨_, keyId, issuer, key, ⟨href, hmethod, hsharp, honly, by rwa [hkeys]⟩,
            (verifyWithKey_iff (hkeysOk key hkey.mem) hp.algorithm).mp h⟩
  · rintro ⟨issuerId', keyId, issuer', key, hsigner, hcheck⟩
    obtain rfl : issuerId' = issuerId := by simpa [href] using hsigner.issuerRef.symm
    obtain rfl : issuer' = issuer := honly.eq hsigner.issuer.mem hsigner.issuer.prop
    have hkey := hsigner.key
    rw [hkeys] at hkey
    have hkeyId : keyId ≠ [] := by
      obtain ⟨s, hs, hs'⟩ := isNonEmptyString_iff.mp (hkeysOk key hkey.mem).keyId
      rw [hkey.prop] at hs
      cases hs
      exact hs'
    have hsplit : splitVerificationMethod method = some (issuerId', keyId) :=
      splitVerificationMethod_eq_some.mpr ⟨by simpa [hmethod] using hsigner.method, hne, hkeyId,
        hsigner.lastSharp⟩
    simp only [hsplit, isText, hid, decide_true, Bool.not_true, Bool.or_self,
      Bool.false_eq_true, if_false, Option.getD_some, findKey, hkeys,
      (findById_eq_some _ hkeyObjects hkeyIds _).mpr hkey]
    exact (verifyWithKey_iff (hkeysOk key hkey.mem) hp.algorithm).mpr hcheck

/-- A proof verifies exactly when its target resolves to the digest that it carries and the checks
against its issuer succeed. -/
theorem proofResult_valid_iff {rt : Runtime} {bundle proof : Members} {issuers : List Json} :
    proofResult rt bundle issuers proof = .ok .valid ↔
      (∃ r, resolveTarget rt bundle (member proof (js "target")) = .ok (some r) ∧
        digestEquals r.digest (get (member proof (js "target")) (js "digest")) = true) ∧
      verifyWithIssuer rt (membersOf (member bundle (js "payload"))) proof
        (issuerOf issuers proof) = .ok .valid := by
  rw [proofResult, verifySignatureProof]
  cases hr : resolveTarget rt bundle (member proof (js "target")) with
  | error thrown => simp
  | ok resolved =>
    cases resolved with
    | none => simp
    | some r =>
      cases hd : digestEquals r.digest (get (member proof (js "target")) (js "digest")) <;>
        simp [hd]

/-- A proof of the profile verifies exactly when it is signed by the signer that it names over
the recomputed digest of what its target names. -/
theorem proofResult_iff {rt : Runtime} {bundle proof : Members} (h : ContentOk rt bundle)
    (hp : ProofOk (sectionsOf bundle).issuerIds proof) :
    proofResult rt bundle (sectionsOf bundle).issuers proof = .ok .valid ↔
      ∃ object content hex issuerId keyId issuer key,
        Signed rt bundle proof object content hex issuerId keyId issuer key := by
  have hresolve := resolveTarget_iff h hp.target
  have hissuer := verifyWithIssuer_iff (membersOf (member bundle (js "payload"))) h.issuers
    h.issuerIds hp
  rw [proofResult_valid_iff, hresolve, hissuer]
  constructor
  · rintro ⟨⟨object, content, hex, hnames, hhash, hd⟩, issuerId, keyId, issuer, key, hsigner,
      hadmits, hcheck⟩
    exact ⟨object, content, hex, issuerId, keyId, issuer, key, hnames, hhash, hd, hsigner,
      hadmits, (checkSignature_iff h.payload hd).mp hcheck⟩
  · rintro ⟨object, content, hex, issuerId, keyId, issuer, key, hs⟩
    exact ⟨⟨object, content, hex, hs.names, hs.hash, hs.digest⟩, issuerId, keyId, issuer, key,
      hs.signer, hs.admits, (checkSignature_iff h.payload hs.digest).mpr hs.signature⟩

end TimeProofs.Core
