import TimeProofs.Core.Builders
import TimeProofs.Core.Integrity
import TimeProofs.Json.RoundTrip

/-!
# A signature binds one object

Two proofs of accepted bundles with the same signing input sign equal data, as far as SHA-256
has no collision among the contents that the two bundles hash.
-/

namespace TimeProofs.Core

open TimeProofs.Base TimeProofs.Json

/-- The bytes that `verifySignatureProof` passes to the Ed25519 function, `proofs.mjs:99–104`. -/
def proofInput (rt : Runtime) (bundle proof : Members) : Except JsString (List UInt8) :=
  let payload := membersOf (member bundle (js "payload"))
  let target := member proof (js "target")
  buildSignatureInput rt (member payload (js "spec_version")) (member payload (js "profile"))
    (get target (js "target_type")) (get target (js "digest"))

/-- The byte strings that are hashed for what the targets of a bundle may name. -/
def hashedBytes (rt : Runtime) (bundle : Members) : Set (List UInt8) :=
  {bytes | ∃ target object content, Names bundle target object content ∧
    canonicalizeBytes rt.numberToString content = .ok bytes}

/-- An object is one of its members and the object without it. -/
theorem perm_cons_withoutMember {ms : Members} (hu : (ms.map Prod.fst).Nodup) {key : JsString}
    {v : Json} (h : member ms key = some v) : ms.Perm ((key, v) :: withoutMember ms key) := by
  induction ms with
  | nil => cases h
  | cons m rest ih =>
    obtain ⟨k, w⟩ := m
    rw [List.map_cons, List.nodup_cons] at hu
    rw [member] at h
    split at h
    · next hk =>
      subst hk
      obtain rfl := Option.some.inj h
      have hrest : withoutMember rest k = rest := by
        refine List.filter_eq_self.mpr fun m hm ↦ ?_
        simp only [ne_eq, decide_eq_true_eq]
        rintro hm'
        exact hu.1 (List.mem_map.mpr ⟨m, hm, hm'⟩)
      rw [withoutMember, List.filter_cons_of_neg (by simp), ← withoutMember, hrest]
    · next hk =>
      rw [withoutMember, List.filter_cons_of_pos (by simpa using hk), ← withoutMember]
      exact ((ih hu.2 h).cons (k, w)).trans (List.Perm.swap _ _ _)

/-- Objects are the same when one member and the rest are. -/
theorem same_of_withoutMember {ms ns : Members} (hm : (ms.map Prod.fst).Nodup)
    (hn : (ns.map Prod.fst).Nodup) {key : JsString} {v w : Json} (hv : member ms key = some v)
    (hw : member ns key = some w) (hvw : Json.Same v w)
    (hrest : Json.Same (.obj (withoutMember ms key)) (.obj (withoutMember ns key))) :
    Json.Same (.obj ms) (.obj ns) := by
  have hpm := perm_cons_withoutMember hm hv
  have hpn := perm_cons_withoutMember hn hw
  rw [Json.Same, Json.sameMembers_iff] at hrest ⊢
  refine ⟨?_, fun m hmem ↦ ?_⟩
  · rw [hpm.length_eq, hpn.length_eq, List.length_cons, List.length_cons, hrest.1]
  · rw [hpm.mem_iff, List.mem_cons] at hmem
    rcases hmem with rfl | hmem
    · exact ⟨w, hpn.mem_iff.mpr (by simp), hvw⟩
    · obtain ⟨u, hu, hsame⟩ := hrest.2 m hmem
      exact ⟨u, hpn.mem_iff.mpr (List.mem_cons_of_mem _ hu), hsame⟩

/-- The same data has the same members. -/
theorem same_member {ms ns : Members} (h : Json.Same (.obj ms) (.obj ns))
    (hn : (ns.map Prod.fst).Nodup) (key : JsString) {v : Json} (hv : member ms key = some v) :
    ∃ w, member ns key = some w ∧ Json.Same v w := by
  rw [Json.Same, Json.sameMembers_iff] at h
  obtain ⟨w, hw, hsame⟩ := h.2 (key, v) (mem_of_member_eq hv)
  exact ⟨w, member_eq_of_mem hn hw, hsame⟩

/-- What all members of an object satisfy, the object without one of them satisfies. -/
theorem withoutMember_subset {ms : Members} {key : JsString} {m : JsString × Json}
    (h : m ∈ withoutMember ms key) : m ∈ ms := (List.mem_filter.mp h).1

theorem uniqueKeys_withoutMember {ms : Members} {key : JsString}
    (h : (Json.obj ms).UniqueKeys) : (Json.obj (withoutMember ms key)).UniqueKeys := by
  rw [Json.UniqueKeys, Json.all_obj] at h ⊢
  exact ⟨h.1.sublist (List.filter_sublist.map _),
    fun m hm ↦ h.2 m (withoutMember_subset hm)⟩

/-- Digest objects of one value are the same data. -/
theorem same_of_isDigest {v w : Json} {hex : JsString} (hv : IsDigest (some v) hex)
    (hw : IsDigest (some w) hex) : Json.Same v w := by
  obtain ⟨ms, hms, hpm⟩ := hv.perm
  obtain ⟨ns, hns, hpn⟩ := hw.perm
  obtain rfl := Option.some.inj hms
  obtain rfl := Option.some.inj hns
  have hperm := hpm.trans hpn.symm
  rw [Json.Same, Json.sameMembers_iff]
  refine ⟨hperm.length_eq, fun m hm ↦ ⟨m.2, hperm.mem_iff.mp hm, ?_⟩⟩
  rw [hpm.mem_iff] at hm
  simp only [List.mem_cons, List.not_mem_nil, or_false] at hm
  rcases hm with rfl | rfl <;> rfl

/-- Hash values of encodable contents without collision are equal only for the same data. -/
theorem same_of_hashOf {rt : Runtime} {s : Set (List UInt8)} (hsha : Set.InjOn rt.sha256 s)
    {v w : Json} (hv : v.UniqueKeys) (hw : w.UniqueKeys)
    (hpv : NumbersPrintBack rt.numberToString v) (hpw : NumbersPrintBack rt.numberToString w)
    {hex : JsString} (hhv : hashOf rt v = .ok hex) (hhw : hashOf rt w = .ok hex)
    (hsv : ∀ bytes, canonicalizeBytes rt.numberToString v = .ok bytes → bytes ∈ s)
    (hsw : ∀ bytes, canonicalizeBytes rt.numberToString w = .ok bytes → bytes ∈ s) :
    Json.Same v w := by
  obtain ⟨bv, hbv, rfl⟩ := map_eq_ok_iff.mp hhv
  obtain ⟨bw, hbw, hhex⟩ := map_eq_ok_iff.mp hhw
  have hbytes := (hsha (hsw bw hbw) (hsv bv hbv) (sha256_of_sha256Hex hhex)).symm
  obtain ⟨hev, rfl⟩ := (canonicalizeBytes_eq_ok_iff _).mp hbv
  obtain ⟨hew, rfl⟩ := (canonicalizeBytes_eq_ok_iff _).mp hbw
  have htext := utf8_inj (wellFormed_canonicalText hev hpv) (wellFormed_canonicalText hew hpw)
    hbytes
  have hstrictv := (strict_iff_encodable v).mpr ⟨hev, hv⟩
  have hstrictw := (strict_iff_encodable w).mpr ⟨hew, hw⟩
  rw [Json.same_iff_normal hv, ← canonicalText_inj hstrictv hstrictw hpv hpw, htext]

/-- Equal signing inputs have equal target types and digests. -/
theorem signingInput_inj {rt : Runtime} {t t' hex hex' : JsString} {input : List UInt8}
    (h : signingInput rt (some (.str t)) hex = .ok input)
    (h' : signingInput rt (some (.str t')) hex' = .ok input) : t = t' ∧ hex = hex' := by
  have hstrict (t hex : JsString) {input : List UInt8}
      (h : signingInput rt (some (.str t)) hex = .ok input) :
      let object := signatureInputObject (.str (js "0.1")) (.str (js "TP-JSON-0.1")) (.str t)
        (digestObject hex)
      object.Strict ∧ NumbersPrintBack rt.numberToString object ∧
        input = utf8 (canonicalText rt.numberToString object) := by
    obtain ⟨hencodable, hinput⟩ := (canonicalizeBytes_eq_ok_iff _).mp h
    refine ⟨(strict_iff_encodable _).mpr ⟨hencodable, ?_⟩, ?_, hinput⟩
    · have hnames : [js "domain", js "profile", js "spec_version", js "target_digest",
          js "target_type"].Nodup := by decide
      have hdigest : [js "algorithm", js "value"].Nodup := by decide
      simp only [Json.UniqueKeys, signatureInputObject, digestObject, Json.all_obj,
        List.map_cons, List.map_nil, List.forall_mem_cons, Json.All, Json.AllMembers]
      simp [hnames, hdigest]
    · simp [NumbersPrintBack, signatureInputObject, digestObject, Json.all_obj, Json.All,
        Json.AllMembers]
  obtain ⟨hs, hp, rfl⟩ := hstrict t hex h
  obtain ⟨hs', hp', hinput⟩ := hstrict t' hex' h'
  have htext := utf8_inj
    (wellFormed_canonicalText ((strict_iff_encodable _).mp hs).1 hp)
    (wellFormed_canonicalText ((strict_iff_encodable _).mp hs').1 hp') hinput
  rw [canonicalText_inj hs hs' hp hp', ← Json.same_iff_normal hs.unique] at htext
  have hnodup := (Json.all_obj _).mp hs'.unique
  obtain ⟨w, hw, htype⟩ := same_member htext hnodup.1 (js "target_type") rfl
  obtain ⟨d, hd, hdigest⟩ := same_member htext hnodup.1 (js "target_digest") rfl
  cases hw
  cases hd
  have hnodup' : ([js "algorithm", js "value"] : List JsString).Nodup := by decide
  obtain ⟨u, hu, hvalue⟩ := same_member hdigest hnodup' (js "value") rfl
  cases hu
  exact ⟨htype, hvalue⟩

section

variable {S : JsString → Prop} {N : Float → Prop} {K : List JsString → Prop}

theorem all_of_member {ms : Members} {key : JsString} {v : Json}
    (h : Json.All S N K (.obj ms)) (hv : member ms key = some v) : Json.All S N K v :=
  ((Json.all_obj ms).mp h).2 _ (mem_of_member_eq hv)

/-- What holds throughout a bundle holds throughout what a target names. -/
theorem all_of_names {bundle : Members} (henvelope : EnvelopeOk (.obj bundle))
    (h : Json.All S N K (.obj bundle)) {target : Option Json} {object content : Json}
    (hnames : Names bundle target object content) : Json.All S N K object := by
  have hpayload := all_of_member h henvelope.payload_eq
  cases hnames with
  | payload _ => exact hpayload
  | @object targetType collection _ _ members _ _ _ honly =>
    have hmem := honly.mem
    cases hitems : member (membersOf (member bundle (js "payload"))) collection with
    | none => simp [hitems, itemsOf] at hmem
    | some v =>
      rw [hitems] at hmem
      cases v with
      | arr items => exact (Json.all_arr items).mp (all_of_member hpayload hitems) _ hmem
      | _ => simp [itemsOf] at hmem

end

/-- What a target covers has distinct names and prints back as the bundle does. -/
theorem content_of_names {rt : Runtime} {bundle : Members} (henvelope : EnvelopeOk (.obj bundle))
    (hu : (Json.obj bundle).UniqueKeys)
    (hp : NumbersPrintBack rt.numberToString (.obj bundle)) {target : Option Json}
    {object content : Json} (hnames : Names bundle target object content) :
    content.UniqueKeys ∧ NumbersPrintBack rt.numberToString content := by
  have huo := all_of_names henvelope hu hnames
  have hpo := all_of_names henvelope hp hnames
  cases hnames with
  | payload _ => exact ⟨huo, hpo⟩
  | object =>
    refine ⟨uniqueKeys_withoutMember huo, ?_⟩
    rw [numbersPrintBack_obj]
    exact fun m hm ↦ (numbersPrintBack_obj _).mp hpo m (withoutMember_subset hm)

/-- Objects are the same when what their digests cover is, under the same declared digest. -/
theorem same_of_content {rt₁ rt₂ : Runtime} {b₁ b₂ : Members} (h₁ : ContentOk rt₁ b₁)
    (h₂ : ContentOk rt₂ b₂) (hu₁ : (Json.obj b₁).UniqueKeys) (hu₂ : (Json.obj b₂).UniqueKeys)
    {t₁ t₂ : Option Json} (htype : get t₁ (js "target_type") = get t₂ (js "target_type"))
    {o₁ c₁ o₂ c₂ : Json} (hn₁ : Names b₁ t₁ o₁ c₁) (hn₂ : Names b₂ t₂ o₂ c₂) {hex : JsString}
    (hh₁ : hashOf rt₁ c₁ = .ok hex) (hh₂ : hashOf rt₂ c₂ = .ok hex) (hsame : Json.Same c₁ c₂) :
    Json.Same o₁ o₂ := by
  have huo₁ := all_of_names h₁.envelope hu₁ hn₁
  have huo₂ := all_of_names h₂.envelope hu₂ hn₂
  have hdeclared {rt : Runtime} {b : Members} (h : ContentOk rt b)
      {targetType collection idField : JsString}
      (hc : targetCollection targetType = some (collection, idField)) {ms : Members}
      (hmem : .obj ms ∈ itemsOf (member (membersOf (member b (js "payload"))) collection))
      (hh : hashOf rt (.obj (withoutMember ms (js "object_digest"))) = .ok hex) :
      ∃ d, member ms (js "object_digest") = some d ∧ IsDigest (some d) hex := by
    obtain ⟨ms', hms, hex', hh', hd⟩ := (h.collection hc).1 _ hmem
    cases hms
    have : contentHash rt ms = .ok hex := hh
    rw [this] at hh'
    obtain rfl := Except.ok.inj hh'
    obtain ⟨d, hd', -⟩ := hd.perm
    exact ⟨_, hd', hd' ▸ hd⟩
  cases hn₁ with
  | payload htype₁ =>
    cases hn₂ with
    | payload _ => exact hsame
    | object htype₂ hc₂ _ _ =>
      rw [htype₁, htype₂] at htype
      cases htype
      simp [targetCollection_payload] at hc₂
  | object htype₁ hc₁ _ honly₁ =>
    cases hn₂ with
    | payload htype₂ =>
      rw [htype₁, htype₂] at htype
      cases htype
      simp [targetCollection_payload] at hc₁
    | object _ hc₂ _ honly₂ =>
      obtain ⟨d₁, hd₁, hdigest₁⟩ := hdeclared h₁ hc₁ honly₁.mem hh₁
      obtain ⟨d₂, hd₂, hdigest₂⟩ := hdeclared h₂ hc₂ honly₂.mem hh₂
      exact same_of_withoutMember ((Json.all_obj _).mp huo₁).1 ((Json.all_obj _).mp huo₂).1
        hd₁ hd₂ (same_of_isDigest hdigest₁ hdigest₂) hsame

/-! ### Binding -/

/-- The values of an input have distinct names. -/
theorem uniqueKeys_of_readBundle {rt rt' : Runtime} {input bundle : Json}
    (h : readBundle rt input = .ok (rt', bundle)) (hu : input.UniqueKeys) :
    bundle.UniqueKeys := by
  unfold readBundle at h
  split at h
  · split at h
    · cases h
    · next v hv =>
      cases h
      exact (parseText_sound (parseJsonStrict_eq_ok_iff.mp hv)).2.2.unique
  · cases h
    exact hu

/-- Reading a text changes the run only in the coercion of objects. -/
theorem runtime_of_readBundle {rt rt' : Runtime} {input bundle : Json}
    (h : readBundle rt input = .ok (rt', bundle)) :
    rt' = rt ∨ rt' = rt.withoutPrototypes := by
  unfold readBundle at h
  split at h
  · split at h <;> cases h
    exact .inr rfl
  · cases h
    exact .inl rfl

/-- A proof of an accepted bundle is over the recomputed digest of what its target names. -/
theorem Accepted.proofInput_eq {rt : Runtime} {bundle proof : Members} (h : Accepted rt bundle)
    (hproof : .obj proof ∈ (sectionsOf bundle).proofs) :
    ∃ targetType object content hex input,
      get (member proof (js "target")) (js "target_type") = some (.str targetType) ∧
      Names bundle (member proof (js "target")) object content ∧ hashOf rt content = .ok hex ∧
      signingInput rt (some (.str targetType)) hex = .ok input ∧
      proofInput rt bundle proof = .ok input := by
  obtain ⟨members, hmembers, hok, hresult⟩ := h.proofs _ hproof
  cases hmembers
  obtain ⟨object, content, hex, _, _, _, _, hs⟩ := (proofResult_iff h.toContentOk hok).mp hresult
  obtain ⟨input, hinput, -⟩ := hs.signature
  obtain ⟨targetType, -, htype⟩ := isOneOf_iff.mp hok.target.targetType
  refine ⟨targetType, object, content, hex, input, htype, hs.names, hs.hash, htype ▸ hinput, ?_⟩
  rw [proofInput, h.payload.specVersion, h.payload.profile]
  exact (buildSignatureInput_digest hs.digest _ _ _ _).mpr hinput

/-- A signature of one accepted bundle is a signature of another one only for the same data: with
equal signing inputs, the target types agree and the named objects are equal up to member
order. -/
theorem signature_binds {rt : Runtime} {input₁ input₂ : Json} {result₁ result₂ : Verification}
    (h₁ : verifyBundle rt input₁ = .ok result₁) (hs₁ : result₁.status ≠ .invalid)
    (h₂ : verifyBundle rt input₂ = .ok result₂) (hs₂ : result₂.status ≠ .invalid)
    (hu₁ : input₁.UniqueKeys) (hu₂ : input₂.UniqueKeys) {rt₁ rt₂ : Runtime}
    {bundle₁ bundle₂ : Members} (hread₁ : readBundle rt input₁ = .ok (rt₁, .obj bundle₁))
    (hread₂ : readBundle rt input₂ = .ok (rt₂, .obj bundle₂))
    (hp₁ : NumbersPrintBack rt.numberToString (.obj bundle₁))
    (hp₂ : NumbersPrintBack rt.numberToString (.obj bundle₂))
    (hsha : Set.InjOn rt.sha256 (hashedBytes rt bundle₁ ∪ hashedBytes rt bundle₂))
    {proof₁ proof₂ : Members} (hproof₁ : .obj proof₁ ∈ (sectionsOf bundle₁).proofs)
    (hproof₂ : .obj proof₂ ∈ (sectionsOf bundle₂).proofs)
    (hinput : proofInput rt bundle₁ proof₁ = proofInput rt bundle₂ proof₂) :
    get (member proof₁ (js "target")) (js "target_type") =
      get (member proof₂ (js "target")) (js "target_type") ∧
    ∃ object₁ content₁ object₂ content₂,
      Names bundle₁ (member proof₁ (js "target")) object₁ content₁ ∧
      Names bundle₂ (member proof₂ (js "target")) object₂ content₂ ∧
      Json.Same object₁ object₂ := by
  have haccepted {input : Json} {result : Verification} {rt' : Runtime} {bundle : Members}
      (h : verifyBundle rt input = .ok result) (hs : result.status ≠ .invalid)
      (hread : readBundle rt input = .ok (rt', .obj bundle)) : Accepted rt' bundle := by
    obtain ⟨rt'', bundle', hread', hok, -⟩ := verifyBundle_accepts.mp ⟨h, hs⟩
    rw [hread] at hread'
    cases hread'
    exact hok
  have hhash {rt' : Runtime} {input bundle : Json}
      (h : readBundle rt input = .ok (rt', bundle)) (v : Json) : hashOf rt' v = hashOf rt v := by
    rcases runtime_of_readBundle h with rfl | rfl <;> rfl
  have hbuild {rt' : Runtime} {input bundle : Json}
      (h : readBundle rt input = .ok (rt', bundle)) :
      signingInput rt' = signingInput rt ∧ proofInput rt' = proofInput rt := by
    rcases runtime_of_readBundle h with rfl | rfl <;> exact ⟨rfl, rfl⟩
  have hok₁ := haccepted h₁ hs₁ hread₁
  have hok₂ := haccepted h₂ hs₂ hread₂
  have hu₁ := uniqueKeys_of_readBundle hread₁ hu₁
  have hu₂ := uniqueKeys_of_readBundle hread₂ hu₂
  obtain ⟨t₁, o₁, c₁, hex₁, i₁, htype₁, hnames₁, hhash₁, hinput₁, hproofInput₁⟩ :=
    hok₁.proofInput_eq hproof₁
  obtain ⟨t₂, o₂, c₂, hex₂, i₂, htype₂, hnames₂, hhash₂, hinput₂, hproofInput₂⟩ :=
    hok₂.proofInput_eq hproof₂
  rw [(hbuild hread₁).1] at hinput₁
  rw [(hbuild hread₂).1] at hinput₂
  rw [(hbuild hread₁).2] at hproofInput₁
  rw [(hbuild hread₂).2] at hproofInput₂
  rw [hproofInput₁, hproofInput₂] at hinput
  obtain rfl := Except.ok.inj hinput
  obtain ⟨rfl, rfl⟩ := signingInput_inj hinput₁ hinput₂
  obtain ⟨huc₁, hpc₁⟩ := content_of_names hok₁.envelope hu₁ hp₁ hnames₁
  obtain ⟨huc₂, hpc₂⟩ := content_of_names hok₂.envelope hu₂ hp₂ hnames₂
  have hsame : Json.Same c₁ c₂ := same_of_hashOf hsha huc₁ huc₂ hpc₁ hpc₂
    (hhash hread₁ c₁ ▸ hhash₁) (hhash hread₂ c₂ ▸ hhash₂)
    (fun bytes hb ↦ .inl ⟨_, _, c₁, hnames₁, hb⟩) (fun bytes hb ↦ .inr ⟨_, _, c₂, hnames₂, hb⟩)
  have htype := htype₁.trans htype₂.symm
  exact ⟨htype, o₁, c₁, o₂, c₂, hnames₁, hnames₂, same_of_content hok₁.toContentOk
    hok₂.toContentOk hu₁ hu₂ htype hnames₁ hnames₂ hhash₁ hhash₂ hsame⟩

/-- Contents with distinct hashes have no collision. -/
theorem injOn_of_nodup {rt : Runtime} (contents : List Json)
    (h : (contents.map fun content ↦ (hashOf rt content).toOption).Nodup) :
    Set.InjOn rt.sha256 {bytes | ∃ content ∈ contents,
      canonicalizeBytes rt.numberToString content = .ok bytes} := by
  rintro x ⟨c, hc, hx⟩ y ⟨d, hd, hy⟩ hxy
  have hcd : (hashOf rt c).toOption = (hashOf rt d).toOption := by
    simp [hashOf, hx, hy, Except.map, Except.toOption, sha256Hex, hxy]
  obtain rfl := List.inj_on_of_nodup_map h hc hd hcd
  rw [hx] at hy
  exact Except.ok.inj hy

def settledMembers : Members := membersOf (some settledBundle)

/-- The proof of the settled refund under another id. -/
def reissuedProof : Members :=
  setMember (membersOf (some sampleProof)) (js "proof_id") (jsonText "p12")

/-- The payload of the settled refund under another bundle id. -/
def reissuedPayload : Members :=
  setMember (membersOf (member settledMembers (js "payload"))) (js "bundle_id") (jsonText "b12")

/-- Another bundle with the same events, evidence and relationships. -/
def reissuedMembers : Members :=
  [(js "payload", .obj reissuedPayload), (js "proofs", .arr [.obj reissuedProof])]

/-- The sample host on the other payload as well, whose text has 1856 bytes. -/
def bindingRuntime : Runtime :=
  { sampleRuntime with
    sha256 := fun bytes ↦
      if bytes.length = 1856 then
        digestOf "2394723628280430d453836c092417b230e6ef5f5960191f8653f4e60552fae3"
      else sampleRuntime.sha256 bytes }

/-- What the targets of a bundle may cover. -/
def targetContents (bundle : Members) : List Json :=
  .obj (membersOf (member bundle (js "payload"))) ::
    ((sectionsOf bundle).events ++ (sectionsOf bundle).evidence ++
      (sectionsOf bundle).relationships).map fun object ↦
        .obj (withoutMember (membersOf (some object)) (js "object_digest"))

private theorem boundBundleFacts :
    (verifyBundle bindingRuntime settledBundle).toOption.map Verification.status = some .valid ∧
      (verifyBundle bindingRuntime (.obj reissuedMembers)).toOption.map Verification.status =
        some .valid ∧
      ((.obj reissuedPayload :: targetContents settledMembers).map fun content ↦
        (hashOf bindingRuntime content).toOption).Nodup := by
  decide +kernel

theorem mem_targetContents {bundle : Members} {target : Option Json} {object content : Json}
    (h : Names bundle target object content) : content ∈ targetContents bundle := by
  cases h with
  | payload _ => exact List.mem_cons_self
  | @object _ _ _ _ members htype hcollection _ honly =>
    refine List.mem_cons_of_mem _ (List.mem_map.mpr ⟨.obj members, ?_, rfl⟩)
    have hmem := honly.mem
    rw [List.mem_append, List.mem_append]
    unfold targetCollection at hcollection
    split_ifs at hcollection <;> cases hcollection
    · exact .inl (.inl hmem)
    · exact .inl (.inr hmem)
    · exact .inr hmem

/-- Two bundles that share a signed event. -/
theorem signature_binds_settled :
    get (member (membersOf (some sampleProof)) (js "target")) (js "target_type") =
      get (member reissuedProof (js "target")) (js "target_type") ∧
    ∃ object₁ content₁ object₂ content₂,
      Names settledMembers (member (membersOf (some sampleProof)) (js "target")) object₁
        content₁ ∧
      Names reissuedMembers (member reissuedProof (js "target")) object₂ content₂ ∧
        Json.Same object₁ object₂ := by
  obtain ⟨hvalid₁, hvalid₂, hdistinct⟩ := boundBundleFacts
  obtain ⟨result₁, hr₁, hs₁⟩ := exists_of_status hvalid₁
  obtain ⟨result₂, hr₂, hs₂⟩ := exists_of_status hvalid₂
  have hvalid {result : Verification} (hs : result.status = .valid) :
      result.status ≠ .invalid := by
    rw [hs]
    nofun
  have hunique₁ : settledBundle.UniqueKeys := by
    unfold Json.UniqueKeys
    decide
  have hunique₂ : (Json.obj reissuedMembers).UniqueKeys := by
    unfold Json.UniqueKeys
    decide
  have hprint₁ : NumbersPrintBack bindingRuntime.numberToString (.obj settledMembers) :=
    Json.All.of_noNumbers (by decide)
  have hprint₂ : NumbersPrintBack bindingRuntime.numberToString (.obj reissuedMembers) :=
    Json.All.of_noNumbers (by decide)
  have hsha : Set.InjOn bindingRuntime.sha256
      (hashedBytes bindingRuntime settledMembers ∪ hashedBytes bindingRuntime reissuedMembers) := by
    refine (injOn_of_nodup _ hdistinct).mono ?_
    rintro bytes (⟨target, object, content, hnames, hbytes⟩ | ⟨target, object, content, hnames,
      hbytes⟩)
    · exact ⟨content, List.mem_cons_of_mem _ (mem_targetContents hnames), hbytes⟩
    · refine ⟨content, ?_, hbytes⟩
      rcases List.mem_cons.mp (mem_targetContents hnames) with rfl | hshared
      · exact List.mem_cons_self
      · exact List.mem_cons_of_mem _ (List.mem_cons_of_mem _ hshared)
  have hread₁ : readBundle bindingRuntime settledBundle =
      .ok (bindingRuntime, .obj settledMembers) := rfl
  have hread₂ : readBundle bindingRuntime (.obj reissuedMembers) =
      .ok (bindingRuntime, .obj reissuedMembers) := rfl
  have hproof₁ : .obj (membersOf (some sampleProof)) ∈ (sectionsOf settledMembers).proofs :=
    List.mem_singleton_self _
  have hproof₂ : .obj reissuedProof ∈ (sectionsOf reissuedMembers).proofs :=
    List.mem_singleton_self _
  exact signature_binds hr₁ (hvalid hs₁) hr₂ (hvalid hs₂) hunique₁ hunique₂ hread₁ hread₂ hprint₁
    hprint₂ hsha hproof₁ hproof₂ rfl

end TimeProofs.Core
