import TimeProofs.Core.VerifyBundle

/-!
# What the checks accept

For each check of the verifier, the condition under which it reports nothing. The conditions
speak of the data only: no path, index or message occurs in them.
-/

namespace TimeProofs.Core

open TimeProofs.Base TimeProofs.Json

@[simp] theorem clean_flag {condition : Bool} {code : ErrorCode} {message : String}
    {path : JsString} : (flag condition code message path).Clean ↔ condition = false :=
  Check.clean_issueWhen

@[simp] theorem clean_requireText {members : Members} {name : String} {code : ErrorCode}
    {message : String} {path : JsString} :
    (requireText members name code message path).Clean ↔
      isNonEmptyString (member members (js name)) = true := by
  simp [requireText]

@[simp] theorem clean_requireObject {members : Members} {name : String} {code : ErrorCode}
    {message : String} {path : JsString} :
    (requireObject members name code message path).Clean ↔
      isObject (member members (js name)) = true := by
  simp [requireObject]

theorem isNonEmptyString_iff {v : Option Json} :
    isNonEmptyString v = true ↔ ∃ s, v = some (.str s) ∧ s ≠ [] := by
  unfold isNonEmptyString
  split <;> simp_all

theorem isString_iff {v : Option Json} : isString v = true ↔ ∃ s, v = some (.str s) := by
  unfold isString
  split <;> simp_all

theorem isText_iff {v : Option Json} {text : JsString} :
    isText v text = true ↔ v = some (.str text) := by
  unfold isText
  split <;> simp_all

theorem isOneOf_iff {texts : List JsString} {v : Option Json} :
    isOneOf texts v = true ↔ ∃ s ∈ texts, v = some (.str s) := by
  unfold isOneOf
  split <;> simp_all

theorem isObject_iff {v : Option Json} : isObject v = true ↔ ∃ ms, v = some (.obj ms) := by
  unfold isObject
  split <;> simp_all

theorem isArray_iff {v : Option Json} : isArray v = true ↔ ∃ items, v = some (.arr items) := by
  unfold isArray
  split <;> simp_all

theorem validUtcTimestamp_iff {v : Option Json} :
    validUtcTimestamp v = true ↔ ∃ s, v = some (.str s) ∧ validTimestampText s = true := by
  unfold validUtcTimestamp
  split <;> simp_all

/-- A string is identical to a value only when the value is that string. -/
theorem strictEqual_str {v : Option Json} {s : JsString} :
    strictEqual v (some (.str s)) = true ↔ v = some (.str s) := by
  unfold strictEqual
  split <;> simp_all

theorem sameValueZero_str {v : Option Json} {s : JsString} :
    sameValueZero (some (.str s)) v = true ↔ v = some (.str s) := by
  cases v with
  | none => simp [sameValueZero, strictEqual]
  | some w => cases w <;> simp [sameValueZero, strictEqual, eq_comm]

/-- Sorted names are the names in some order. -/
theorem sortNames_eq_iff {names expected : List JsString} :
    sortNames names = sortNames expected ↔ names.Perm expected := by
  have hperm (l : List JsString) : (sortNames l).Perm l := List.perm_insertionSort _ l
  have hsorted (l : List JsString) : (sortNames l).Pairwise fun s t ↦ compareUtf16 s t ≤ 0 := by
    have : Std.Total fun s t : JsString ↦ compareUtf16 s t ≤ 0 := ⟨compareUtf16_total⟩
    have : IsTrans JsString fun s t ↦ compareUtf16 s t ≤ 0 := ⟨fun _ _ _ ↦ compareUtf16_trans⟩
    exact List.pairwise_insertionSort _ l
  constructor
  · exact fun h ↦ (hperm names).symm.trans (h ▸ hperm expected)
  · intro h
    refine ((hperm names).trans (h.trans (hperm expected).symm)).eq_of_pairwise ?_
      (hsorted names) (hsorted expected)
    intro a b _ _ hab hba
    refine eq_of_compareUtf16 ?_
    have := compareUtf16_swap a b
    omega

/-- An object with exactly the expected members. -/
theorem exactKeys_iff {v : Option Json} {expected : List JsString} :
    exactKeys v expected = true ↔ ∃ ms, v = some (.obj ms) ∧ (ms.map Prod.fst).Perm expected := by
  unfold exactKeys
  split <;> simp_all [sortNames_eq_iff]

theorem member_isSome_iff {ms : Members} {key : JsString} :
    (member ms key).isSome = true ↔ key ∈ ms.map Prod.fst := by
  induction ms with
  | nil => simp [member]
  | cons m rest ih =>
    obtain ⟨k, v⟩ := m
    rw [member]
    split
    · next h => simp [h]
    · next h => simp [ih, Ne.symm h]

/-- The member found under a name is one of the object's members. -/
theorem mem_of_member_eq {ms : Members} {key : JsString} {v : Json}
    (h : member ms key = some v) : (key, v) ∈ ms := by
  induction ms with
  | nil => cases h
  | cons m rest ih =>
    obtain ⟨k, w⟩ := m
    rw [member] at h
    split at h
    · next hk =>
      obtain rfl := Option.some.inj h
      simp [hk]
    · simp [ih h]

/-- With distinct names a member is found under its name. -/
theorem member_eq_of_mem {ms : Members} (hu : (ms.map Prod.fst).Nodup) {key : JsString} {v : Json}
    (h : (key, v) ∈ ms) : member ms key = some v := by
  have hs : (member ms key).isSome = true :=
    member_isSome_iff.mpr (List.mem_map.mpr ⟨(key, v), h, rfl⟩)
  obtain ⟨w, hw⟩ := Option.isSome_iff_exists.mp hs
  rw [hw, Json.eq_of_mem_of_unique hu h (mem_of_member_eq hw)]

/-- A digest object with the given hexadecimal value. -/
structure IsDigest (v : Option Json) (hex : JsString) : Prop where
  keys : exactKeys v digestKeys = true
  algorithm : get v (js "algorithm") = some (.str (js "sha-256"))
  value : get v (js "value") = some (.str hex)

theorem isSha256Hex_iff {v : Option Json} :
    isSha256Hex v = true ↔ ∃ hex, v = some (.str hex) ∧ sha256Pattern hex = true := by
  unfold isSha256Hex
  split <;> simp_all

theorem validDigest_iff {v : Option Json} :
    validDigest v = true ↔ ∃ hex, IsDigest v hex ∧ sha256Pattern hex = true := by
  simp only [validDigest, Bool.and_eq_true, isText_iff, isSha256Hex_iff]
  constructor
  · rintro ⟨⟨hk, ha⟩, hex, hv, hp⟩
    exact ⟨hex, ⟨hk, ha, hv⟩, hp⟩
  · rintro ⟨hex, ⟨hk, ha, hv⟩, hp⟩
    exact ⟨⟨hk, ha⟩, hex, hv, hp⟩

/-- Every SHA-256 value has the pattern. -/
theorem sha256Pattern_sha256Hex (rt : Runtime) (bytes : List UInt8) :
    sha256Pattern (sha256Hex rt bytes) = true := by
  simp only [sha256Pattern, sha256Hex, length_hexText, (rt.sha256 bytes).length_eq,
    Bool.and_eq_true, decide_eq_true_eq, List.all_eq_true]
  exact ⟨trivial, fun c hc ↦ isHexLower_of_mem_hexText hc⟩

theorem isDigest_digestObject (hex : JsString) : IsDigest (some (digestObject hex)) hex where
  keys := exactKeys_iff.mpr ⟨_, rfl, .refl _⟩
  algorithm := rfl
  value := by
    have hne : js "algorithm" ≠ js "value" := by decide
    simp [get, digestObject, member, hne]

theorem IsDigest.truthy {v : Option Json} {hex : JsString} (h : IsDigest v hex) :
    truthy v = true := by
  obtain ⟨ms, rfl, -⟩ := exactKeys_iff.mp h.keys
  rfl

/-- Two digest objects are equal digests exactly when their values agree. -/
theorem digestEquals_iff {v w : Option Json} {hex hex' : JsString} (hv : IsDigest v hex)
    (hw : IsDigest w hex') : digestEquals v w = true ↔ hex = hex' := by
  simp only [digestEquals, hv.truthy, hw.truthy, hv.algorithm, hv.value, hw.algorithm, hw.value,
    strictEqual, decide_true, Bool.and_true, Bool.and_eq_true, decide_eq_true_eq]
  exact and_iff_right trivial

/-- The digest of an object's content without its declared digest, in hexadecimal. -/
def contentHash (rt : Runtime) (object : Members) : Except JsString JsString :=
  (canonicalizeBytes rt.numberToString (.obj (withoutMember object (js "object_digest")))).map
    (sha256Hex rt)

theorem calculateObjectDigest_eq (rt : Runtime) (object : Members) :
    calculateObjectDigest rt object = (contentHash rt object).map digestObject := by
  rw [calculateObjectDigest, digestValue, contentHash]
  cases canonicalizeBytes rt.numberToString
    (.obj (withoutMember object (js "object_digest"))) <;> rfl

/-- The declared digest of an object is the digest of its content. -/
def DigestMatches (rt : Runtime) (object : Members) : Prop :=
  ∃ hex, contentHash rt object = .ok hex ∧ IsDigest (member object (js "object_digest")) hex

theorem clean_verifyObjectDigest {rt : Runtime} {object : Members} {path : JsString} :
    (verifyObjectDigest rt object path).Clean ↔ DigestMatches rt object := by
  unfold verifyObjectDigest DigestMatches
  cases hv : validDigest (member object (js "object_digest")) with
  | false =>
    simp only [Bool.not_false, if_true, clean_flag, Bool.true_eq_false, false_iff, not_exists,
      not_and]
    rintro hex hc hd
    have : validDigest (member object (js "object_digest")) = true := by
      obtain ⟨bytes, -, rfl⟩ := map_eq_ok_iff.mp hc
      exact validDigest_iff.mpr ⟨_, hd, sha256Pattern_sha256Hex rt bytes⟩
    rw [hv] at this
    cases this
  | true =>
    obtain ⟨hex', hd, -⟩ := validDigest_iff.mp hv
    simp only [Bool.not_true, Bool.false_eq_true, if_false, calculateObjectDigest_eq]
    cases hc : contentHash rt object with
    | error message => simp [Except.map, Check.Clean]
    | ok hex =>
      simp only [Except.map, Check.clean_issueWhen, Bool.not_eq_false', Except.ok.injEq,
        exists_eq_left', digestEquals_iff (isDigest_digestObject hex) hd]
      constructor
      · rintro rfl
        exact hd
      · intro hd'
        have := hd.value.symm.trans hd'.value
        simpa [eq_comm] using this

theorem duplicates_eq_nil_iff {α : Type} {same : α → α → Bool} {seen xs : List α} :
    duplicates same seen xs = [] ↔
      (∀ x ∈ xs, ∀ y ∈ seen, same x y = false) ∧ xs.Pairwise fun x y ↦ same y x = false := by
  induction xs generalizing seen with
  | nil => simp [duplicates]
  | cons x rest ih =>
    rw [duplicates]
    split
    · next h =>
      obtain ⟨y, hy, hs⟩ := List.any_eq_true.mp h
      simp only [reduceCtorEq, List.mem_cons, false_iff, not_and]
      intro hall
      rw [hall x (.inl rfl) y hy] at hs
      cases hs
    · next h =>
      rw [ih, List.pairwise_cons]
      simp only [List.any_eq_true, not_exists, not_and, Bool.not_eq_true] at h
      simp only [List.mem_cons, forall_eq_or_imp]
      constructor
      · rintro ⟨h₁, h₂⟩
        exact ⟨⟨h, fun z hz ↦ (h₁ z hz).2⟩, fun z hz ↦ (h₁ z hz).1, h₂⟩
      · rintro ⟨⟨_, h₁⟩, h₂, h₃⟩
        exact ⟨fun z hz ↦ ⟨h₂ z hz, h₁ z hz⟩, h₃⟩

theorem repeatsText_eq_false {texts : List JsString} :
    repeatsText texts = false ↔ texts.Nodup := by
  simp only [repeatsText, ne_eq, decide_not, Bool.not_eq_false', decide_eq_true_eq,
    duplicates_eq_nil_iff]
  simp only [List.not_mem_nil, false_imp_iff, implies_true, true_and, decide_eq_false_iff_not]
  exact List.Pairwise.iff fun _ _ ↦ by simp [eq_comm]

theorem repeatsValue_eq_false {values : List (Option Json)} :
    repeatsValue values = false ↔ values.Pairwise fun v w ↦ sameValueZero w v = false := by
  simp [repeatsValue, duplicates_eq_nil_iff]

/-- Repetition among string values is repetition of the strings. -/
theorem repeatsValue_str {texts : List JsString} :
    repeatsValue (texts.map fun s ↦ some (.str s)) = false ↔ texts.Nodup := by
  rw [repeatsValue_eq_false, List.pairwise_map, List.Nodup]
  exact List.Pairwise.iff fun s t ↦ by simp [sameValueZero, strictEqual, eq_comm]

theorem clean_repeatedTexts {texts : List (Except Thrown JsString)} {code : ErrorCode}
    {message : String} {path : JsString} :
    (repeatedTexts texts code message path).Clean ↔
      ∃ keys, collect texts = .ok keys ∧ keys.Nodup := by
  unfold repeatedTexts
  cases collect texts with
  | error thrown => simp [Check.Clean]
  | ok keys => simp [repeatsText_eq_false]

/-- An entity reference of the profile. -/
structure EntityOk (entity : Option Json) : Prop where
  keys : allowedKeys entity entityRequiredKeys entityOptionalKeys = true
  entityType : isNonEmptyString (get entity (js "entity_type")) = true
  entityId : isNonEmptyString (get entity (js "entity_id")) = true
  displayName : get entity (js "display_name") = none ∨
    isString (get entity (js "display_name")) = true

theorem clean_verifyEntityRef {entity : Option Json} {path : JsString} {errorCode : ErrorCode} :
    (verifyEntityRef entity path errorCode).Clean ↔ EntityOk entity := by
  unfold verifyEntityRef
  split
  · next members =>
    simp only [Check.clean_all, List.forall_mem_cons, List.not_mem_nil, false_imp_iff,
      implies_true, and_true, clean_flag, clean_requireText, Bool.not_eq_false',
      Bool.and_eq_false_iff, Option.isSome_eq_false_iff, Option.isNone_iff_eq_none]
    constructor
    · rintro ⟨h₁, h₂, h₃, h₄⟩
      exact ⟨h₁, h₂, h₃, h₄⟩
    · rintro ⟨h₁, h₂, h₃, h₄⟩
      exact ⟨h₁, h₂, h₃, h₄⟩
  · next h =>
    simp only [clean_flag, Bool.true_eq_false, false_iff]
    intro hok
    have := hok.keys
    unfold allowedKeys at this
    split at this
    · exact h _ rfl
    · cases this

/-- An identifier of an issuer. -/
structure IdentifierOk (identifier : Json) : Prop where
  keys : exactKeys (some identifier) identifierKeys = true
  scheme : isNonEmptyString (get (some identifier) (js "scheme")) = true
  value : isNonEmptyString (get (some identifier) (js "value")) = true

theorem clean_verifyIdentifier {path : JsString} {index : Nat} {identifier : Json} :
    (verifyIdentifier path index identifier).Clean ↔ IdentifierOk identifier := by
  unfold verifyIdentifier
  dsimp only
  split
  · simp only [Check.clean_all, List.forall_mem_cons, List.not_mem_nil, false_imp_iff,
      implies_true, and_true, clean_flag, clean_requireText, Bool.not_eq_false']
    constructor
    · rintro ⟨h₁, h₂, h₃⟩
      exact ⟨h₁, h₂, h₃⟩
    · rintro ⟨h₁, h₂, h₃⟩
      exact ⟨h₁, h₂, h₃⟩
  · next h =>
    simp only [clean_flag, Bool.true_eq_false, false_iff]
    intro hok
    obtain ⟨ms, hms, -⟩ := exactKeys_iff.mp hok.keys
    exact h ms (Option.some.inj hms)

/-- A public key of an issuer. -/
structure KeyOk (key : Json) : Prop where
  keys : allowedKeys (some key) keyRequiredKeys keyOptionalKeys = true
  keyId : isNonEmptyString (get (some key) (js "key_id")) = true
  algorithm : get (some key) (js "algorithm") = some (.str (js "Ed25519"))
  format : get (some key) (js "format") = some (.str (js "spki-pem"))
  publicKey : ∃ pem, get (some key) (js "public_key") = some (.str pem) ∧
    includes pem (js "-----BEGIN PUBLIC KEY-----") = true ∧
    includes pem (js "-----END PUBLIC KEY-----") = true
  validFrom : get (some key) (js "valid_from") = none ∨
    validUtcTimestamp (get (some key) (js "valid_from")) = true
  validUntil : get (some key) (js "valid_until") = none ∨
    validUtcTimestamp (get (some key) (js "valid_until")) = true
  interval : validUtcTimestamp (get (some key) (js "valid_from")) = true →
    validUtcTimestamp (get (some key) (js "valid_until")) = true →
    0 < compareTimestamps (get (some key) (js "valid_until")) (get (some key) (js "valid_from"))
  revocationRef : get (some key) (js "revocation_ref") = none ∨
    isNonEmptyString (get (some key) (js "revocation_ref")) = true

theorem isObject_of_allowedKeys {v : Option Json} {required optional : List JsString}
    (h : allowedKeys v required optional = true) : ∃ ms, v = some (.obj ms) := by
  unfold allowedKeys at h
  split at h
  · exact ⟨_, rfl⟩
  · cases h

theorem isPemPublicKey_iff {v : Option Json} :
    isPemPublicKey v = true ↔ ∃ pem, v = some (.str pem) ∧
      includes pem (js "-----BEGIN PUBLIC KEY-----") = true ∧
      includes pem (js "-----END PUBLIC KEY-----") = true := by
  unfold isPemPublicKey
  split <;> simp_all

theorem clean_verifyKey {path : JsString} {index : Nat} {key : Json} :
    (verifyKey path index key).Clean ↔ KeyOk key := by
  unfold verifyKey
  dsimp only
  split
  · next members =>
    simp only [Check.clean_all, List.forall_mem_cons, List.not_mem_nil, false_imp_iff,
      implies_true, and_true, clean_flag, clean_requireText, Bool.not_eq_false',
      isPemPublicKey_iff, Bool.and_eq_false_iff, Option.isSome_eq_false_iff,
      Option.isNone_iff_eq_none, isText_iff, decide_eq_false_iff_not, Int.not_le]
    constructor
    · rintro ⟨h₁, h₂, h₃, h₄, h₅, h₆, h₇, h₈, h₉⟩
      refine ⟨h₁, h₂, h₃, h₄, h₅, h₆, h₇, fun hf hu ↦ ?_, h₉⟩
      rcases h₈ with (h | h) | h
      · exact absurd hf (by simpa [get] using h)
      · exact absurd hu (by simpa [get] using h)
      · exact h
    · rintro ⟨h₁, h₂, h₃, h₄, h₅, h₆, h₇, h₈, h₉⟩
      refine ⟨h₁, h₂, h₃, h₄, h₅, h₆, h₇, ?_, h₉⟩
      simp only [get] at h₈
      by_cases hf : validUtcTimestamp (member members (js "valid_from")) = true
      · by_cases hu : validUtcTimestamp (member members (js "valid_until")) = true
        · exact .inr (h₈ hf hu)
        · exact .inl (.inr (by simpa using hu))
      · exact .inl (.inl (by simpa using hf))
  · next h =>
    simp only [clean_flag, Bool.true_eq_false, false_iff]
    intro hok
    obtain ⟨ms, hms⟩ := isObject_of_allowedKeys hok.keys
    exact h ms (Option.some.inj hms)

/-- An issuer of the profile. -/
structure IssuerOk (rt : Runtime) (issuer : Json) : Prop where
  keys : exactKeys (some issuer) issuerKeys = true
  issuerId : isNonEmptyString (get (some issuer) (js "issuer_id")) = true
  displayName : isNonEmptyString (get (some issuer) (js "display_name")) = true
  issuerType : isOneOf issuerTypes (get (some issuer) (js "issuer_type")) = true
  identifiers : ∃ identifiers, get (some issuer) (js "identifiers") = some (.arr identifiers) ∧
    (∀ identifier ∈ identifiers, IdentifierOk identifier) ∧
    ∃ texts, collect (identifiers.map (identifierKey rt)) = .ok texts ∧ texts.Nodup
  keyList : ∃ keys, get (some issuer) (js "keys") = some (.arr keys) ∧
    (∀ key ∈ keys, KeyOk key) ∧ (idsOf (js "key_id") keys).Nodup
  extensions : isObject (get (some issuer) (js "extensions")) = true

/-- The ids of objects that all have a string id. -/
theorem map_get_eq_idsOf {idField : JsString} {items : List Json}
    (h : ∀ item ∈ items, isNonEmptyString (get (some item) idField) = true) :
    items.map (fun item ↦ get (some item) idField) =
      (idsOf idField items).map fun id ↦ some (.str id) := by
  induction items with
  | nil => rfl
  | cons item rest ih =>
    obtain ⟨id, hid, -⟩ := isNonEmptyString_iff.mp (h item (by simp))
    rw [List.map_cons, ih fun x hx ↦ h x (by simp [hx])]
    simp [idsOf, stringId, hid]

private theorem filter_isObject {items : List Json}
    (h : ∀ item ∈ items, isObject (some item) = true) :
    items.filter (fun v ↦ isObject (some v)) = items :=
  List.filter_eq_self.mpr h

theorem clean_verifyIdentifiers {rt : Runtime} {identifiers : Option Json} {path : JsString} :
    (verifyIdentifiers rt identifiers path).Clean ↔
      ∃ items, identifiers = some (.arr items) ∧ (∀ item ∈ items, IdentifierOk item) ∧
        ∃ texts, collect (items.map (identifierKey rt)) = .ok texts ∧ texts.Nodup := by
  unfold verifyIdentifiers
  split
  · next items =>
    rw [Check.clean_both, Check.clean_each_const (P := IdentifierOk)
      fun _ _ ↦ clean_verifyIdentifier]
    simp only [clean_repeatedTexts, Option.some.injEq, Json.arr.injEq, exists_eq_left']
    refine and_congr_right fun hall ↦ ?_
    rw [filter_isObject fun item hitem ↦ ?_]
    obtain ⟨ms, hms, -⟩ := exactKeys_iff.mp (hall item hitem).keys
    exact isObject_iff.mpr ⟨ms, hms⟩
  · next h =>
    simp only [clean_flag, Bool.true_eq_false, false_iff, not_exists, not_and]
    exact fun items hitems ↦ absurd hitems (h items)

theorem clean_verifyKeys {keys : Option Json} {path : JsString} :
    (verifyKeys keys path).Clean ↔
      ∃ items, keys = some (.arr items) ∧ (∀ key ∈ items, KeyOk key) ∧
        (idsOf (js "key_id") items).Nodup := by
  unfold verifyKeys
  split
  · next items =>
    rw [Check.clean_both, Check.clean_each_const (P := KeyOk) fun _ _ ↦ clean_verifyKey]
    simp only [clean_flag, Option.some.injEq, Json.arr.injEq, exists_eq_left']
    refine and_congr_right fun hall ↦ ?_
    rw [filter_isObject fun item hitem ↦ ?_,
      map_get_eq_idsOf fun key hkey ↦ (hall key hkey).keyId, repeatsValue_str]
    obtain ⟨ms, hms⟩ := isObject_of_allowedKeys (hall item hitem).keys
    exact isObject_iff.mpr ⟨ms, hms⟩
  · next h =>
    simp only [clean_flag, Bool.true_eq_false, false_iff, not_exists, not_and]
    exact fun items hitems ↦ absurd hitems (h items)

theorem clean_verifyIssuer {rt : Runtime} {issuer : Json} {path : JsString} :
    (verifyIssuer rt issuer path).Clean ↔ IssuerOk rt issuer := by
  unfold verifyIssuer
  split
  · next members =>
    simp only [Check.clean_all, List.forall_mem_cons, List.not_mem_nil, false_imp_iff,
      implies_true, and_true, clean_flag, clean_requireText, clean_requireObject,
      Bool.not_eq_false', clean_verifyIdentifiers, clean_verifyKeys]
    constructor
    · rintro ⟨h₁, h₂, h₃, h₄, h₅, h₆, h₇⟩
      exact ⟨h₁, h₂, h₃, h₄, h₅, h₆, h₇⟩
    · rintro ⟨h₁, h₂, h₃, h₄, h₅, h₆, h₇⟩
      exact ⟨h₁, h₂, h₃, h₄, h₅, h₆, h₇⟩
  · next h =>
    simp only [clean_flag, Bool.true_eq_false, false_iff]
    intro hok
    obtain ⟨ms, hms, -⟩ := exactKeys_iff.mp hok.keys
    exact h ms (Option.some.inj hms)

theorem clean_requirePattern {rt : Runtime} {pattern : Regex CodeUnit} {v : Option Json}
    {code : ErrorCode} {message : String} {path : JsString} :
    (requirePattern rt pattern v code message path).Clean ↔
      ∃ text, textOrEmpty rt v = .ok text ∧ pattern.test text = true := by
  unfold requirePattern
  cases textOrEmpty rt v <;> simp [Check.Clean, flag, Check.issueWhen]

/-- The pattern test of a string value. -/
theorem clean_requirePattern_str {rt : Runtime} {pattern : Regex CodeUnit} {s : JsString}
    {code : ErrorCode} {message : String} {path : JsString} :
    (requirePattern rt pattern (some (.str s)) code message path).Clean ↔
      pattern.test s = true := by
  simp [clean_requirePattern, textOrEmpty, toText]

/-- An event type whose phase, status and source class the vocabulary permits. -/
def VocabularyOk (event : Json) : Prop :=
  let text (name : String) := stringOf (get (some event) (js name))
  validateEventVocabulary (get (some event) (js "event_type")) (text "event_type") (text "phase")
    (text "status") (text "source_class") = .ok []

/-- An event of the profile, whose issuer is one of the given ones. -/
structure EventOk (rt : Runtime) (issuerIds : List JsString) (event : Json) : Prop where
  keys : exactKeys (some event) eventKeys = true
  texts : ∀ name ∈ eventTextMembers, isNonEmptyString (get (some event) (js name)) = true
  phase : isOneOf phases (get (some event) (js "phase")) = true
  eventType : eventTypePattern.test (stringOf (get (some event) (js "event_type"))) = true
  status : isOneOf statuses (get (some event) (js "status")) = true
  sourceClass : isOneOf sourceClasses (get (some event) (js "source_class")) = true
  occurredAt : validUtcTimestamp (get (some event) (js "occurred_at")) = true
  recordedAt : validUtcTimestamp (get (some event) (js "recorded_at")) = true
  recordedAfter : 0 ≤ compareTimestamps (get (some event) (js "recorded_at"))
    (get (some event) (js "occurred_at"))
  issuerRef : isOneOf issuerIds (get (some event) (js "issuer_ref")) = true
  parents : ∃ parents, get (some event) (js "parent_event_digests") = some (.arr parents) ∧
    ∃ texts, collect (parents.map (digestKey rt)) = .ok texts ∧ texts.Nodup
  evidenceRefs : ∃ refs, get (some event) (js "evidence_refs") = some (.arr refs) ∧
    repeatsValue (refs.map some) = false
  actor : EntityOk (get (some event) (js "actor"))
  subject : EntityOk (get (some event) (js "subject"))
  claim : isObject (get (some event) (js "claim")) = true
  extensions : isObject (get (some event) (js "extensions")) = true
  vocabulary : VocabularyOk event
  digest : DigestMatches rt (membersOf (some event))

theorem clean_verifyParentDigests {rt : Runtime} {parents : Option Json} {path : JsString} :
    (verifyParentDigests rt parents path).Clean ↔
      ∃ items, parents = some (.arr items) ∧
        ∃ texts, collect (items.map (digestKey rt)) = .ok texts ∧ texts.Nodup := by
  unfold verifyParentDigests
  split
  · simp [clean_repeatedTexts]
  · next h =>
    simp only [clean_flag, Bool.true_eq_false, false_iff, not_exists, not_and]
    exact fun items hitems ↦ absurd hitems (h items)

theorem clean_verifyEvidenceRefs {refs : Option Json} {path : JsString} :
    (verifyEvidenceRefs refs path).Clean ↔
      ∃ items, refs = some (.arr items) ∧ repeatsValue (items.map some) = false := by
  unfold verifyEvidenceRefs
  split
  · simp
  · next h =>
    simp only [clean_flag, Bool.true_eq_false, false_iff, not_exists, not_and]
    exact fun items hitems ↦ absurd hitems (h items)

/-- On strings of the vocabularies and an event type of the right form, the vocabulary is
checked. -/
theorem clean_verifyEventVocabulary {rt : Runtime} {members : Members} {path : JsString}
    (hphase : isOneOf phases (member members (js "phase")) = true)
    (hstatus : isOneOf statuses (member members (js "status")) = true)
    (hsource : isOneOf sourceClasses (member members (js "source_class")) = true)
    {typeText : JsString} (htype : member members (js "event_type") = some (.str typeText))
    (hpattern : eventTypePattern.test typeText = true) :
    (verifyEventVocabulary rt members path).Clean ↔ VocabularyOk (.obj members) := by
  simp only [verifyEventVocabulary, VocabularyOk, hphase, hstatus, hsource, htype, textOrEmpty,
    toText, hpattern, Bool.and_self, if_true, get, stringOf]
  split
  · next thrown h => simp [h, Check.Clean]
  · next issues h => simp [h, Check.Clean]

theorem clean_verifyEvent {rt : Runtime} {issuerIds : List JsString} {event : Json}
    {path : JsString} :
    (verifyEvent rt issuerIds event path).Clean ↔ EventOk rt issuerIds event := by
  unfold verifyEvent
  split
  · next members =>
    simp only [Check.clean_all, List.forall_mem_cons, List.not_mem_nil, false_imp_iff,
      implies_true, and_true, List.forall_mem_map, clean_flag, clean_requireText,
      clean_requireObject, Bool.not_eq_false', clean_verifyEntityRef, clean_verifyParentDigests,
      clean_verifyEvidenceRefs, clean_verifyObjectDigest]
    constructor
    · rintro ⟨h₁, h₂, h₃, h₄, h₅, h₆, h₇, h₈, h₉, h₁₀, h₁₁, h₁₂, h₁₃, h₁₄, h₁₅, h₁₆, h₁₇, h₁₈⟩
      obtain ⟨t, ht, -⟩ := isNonEmptyString_iff.mp (h₂ "event_type" (by decide))
      rw [ht, clean_requirePattern_str] at h₄
      rw [clean_verifyEventVocabulary h₃ h₅ h₆ ht h₄] at h₁₇
      refine ⟨h₁, h₂, h₃, ?_, h₅, h₆, h₇, h₈, ?_, h₁₀, h₁₁, h₁₂, h₁₃, h₁₄, h₁₅, h₁₆, h₁₇, h₁₈⟩
      · simpa [get, ht, stringOf] using h₄
      · simpa [get, h₇, h₈] using h₉
    · rintro ⟨h₁, h₂, h₃, h₄, h₅, h₆, h₇, h₈, h₉, h₁₀, h₁₁, h₁₂, h₁₃, h₁₄, h₁₅, h₁₆, h₁₇, h₁₈⟩
      obtain ⟨t, ht, -⟩ := isNonEmptyString_iff.mp (h₂ "event_type" (by decide))
      simp only [get] at ht h₉
      simp only [get, ht, stringOf] at h₄
      refine ⟨h₁, h₂, h₃, ?_, h₅, h₆, h₇, h₈, ?_, h₁₀, h₁₁, h₁₂, h₁₃, h₁₄, h₁₅, h₁₆, ?_, h₁₈⟩
      · rwa [ht, clean_requirePattern_str]
      · simp only [Bool.and_eq_false_iff, decide_eq_false_iff_not, Int.not_lt]
        exact .inr h₉
      · exact (clean_verifyEventVocabulary h₃ h₅ h₆ ht h₄).mpr h₁₇
  · next h =>
    simp only [clean_flag, Bool.true_eq_false, false_iff]
    intro hok
    obtain ⟨ms, hms, -⟩ := exactKeys_iff.mp hok.keys
    exact h ms (Option.some.inj hms)

/-- A registered event type has the phase and a status of its rule. -/
theorem EventOk.registered {rt : Runtime} {issuerIds : List JsString} {event : Json}
    (h : EventOk rt issuerIds event) {eventType : JsString}
    (htype : get (some event) (js "event_type") = some (.str eventType)) {rule : EventTypeRule}
    (hrule : ruleOf eventType = some rule) :
    stringOf (get (some event) (js "phase")) = rule.phase ∧
      stringOf (get (some event) (js "status")) ∈ rule.allowedStatuses := by
  have hv := h.vocabulary
  simp only [VocabularyOk, htype, stringOf, validateEventVocabulary, hrule, Except.ok.injEq,
    List.append_eq_nil_iff, ruleIssues, ite_eq_left_iff, reduceCtorEq, imp_false,
    not_not] at hv
  simpa only [stringOf] using hv.2

/-- An event type in a reserved namespace is registered. -/
theorem EventOk.ruleOf_isSome {rt : Runtime} {issuerIds : List JsString} {event : Json}
    (h : EventOk rt issuerIds event) {eventType : JsString}
    (htype : get (some event) (js "event_type") = some (.str eventType))
    (hreserved : startsWithReservedNamespace (some (.str eventType)) = .ok true) :
    (ruleOf eventType).isSome = true := by
  have hv := h.vocabulary
  cases hrule : ruleOf eventType with
  | some rule => rfl
  | none => simp [VocabularyOk, htype, stringOf, validateEventVocabulary, hrule, hreserved] at hv

/-- A locator of the profile. -/
structure LocatorOk (rt : Runtime) (locator : Option Json) : Prop where
  keys : exactKeys locator locatorKeys = true
  scheme : isOneOf locatorSchemes (get locator (js "scheme")) = true
  value : isNonEmptyString (get locator (js "value")) = true
  policy : isOneOf retrievalPolicies (get locator (js "retrieval_policy")) = true
  url : isText (get locator (js "scheme")) (js "https") = true →
    isHttpsUrl rt (get locator (js "value")) = true
  embedded : isText (get locator (js "scheme")) (js "embedded") = true →
    isText (get locator (js "retrieval_policy")) (js "UNAVAILABLE") = false

theorem clean_verifyLocator {rt : Runtime} {locator : Option Json} {path : JsString} :
    (verifyLocator rt locator path).Clean ↔ LocatorOk rt locator := by
  unfold verifyLocator
  split
  · next members =>
    simp only [Check.clean_all, List.forall_mem_cons, List.not_mem_nil, false_imp_iff,
      implies_true, and_true, clean_flag, clean_requireText, Bool.not_eq_false']
    constructor
    · rintro ⟨h₁, h₂, h₃, h₄, h₅, h₆⟩
      refine ⟨h₁, h₂, h₃, h₄, fun h ↦ ?_, fun h ↦ ?_⟩ <;> simp only [get] at h ⊢
      · simpa [h] using h₅
      · simpa [h] using h₆
    · rintro ⟨h₁, h₂, h₃, h₄, h₅, h₆⟩
      simp only [get] at h₅ h₆
      refine ⟨h₁, h₂, h₃, h₄, ?_, ?_⟩
      · cases h : isText (member members (js "scheme")) (js "https") <;> simp_all
      · cases h : isText (member members (js "scheme")) (js "embedded") <;> simp_all
  · next h =>
    simp only [clean_flag, Bool.true_eq_false, false_iff]
    intro hok
    obtain ⟨ms, hms, -⟩ := exactKeys_iff.mp hok.keys
    exact h ms hms

/-- A claim scope of the profile. -/
structure ScopeOk (scope : Option Json) : Prop where
  array : isArray scope = true
  nonempty : itemsOf scope ≠ []
  types : ∀ item ∈ itemsOf scope, isEventType item = true
  distinct : repeatsValue ((itemsOf scope).map some) = false

theorem clean_verifyClaimScope {scope : Option Json} {path : JsString} :
    (verifyClaimScope scope path).Clean ↔ ScopeOk scope := by
  unfold verifyClaimScope
  dsimp only
  split
  · next h =>
    simp only [Bool.or_eq_true, Bool.not_eq_true', List.isEmpty_iff, List.any_eq_true] at h
    simp only [clean_flag, Bool.true_eq_false, false_iff]
    rintro ⟨ha, hn, ht, -⟩
    rcases h with (h | h) | ⟨item, hitem, h⟩
    · simp [ha] at h
    · exact hn h
    · simp [ht item hitem] at h
  · next h =>
    simp only [Bool.or_eq_true, Bool.not_eq_true', List.isEmpty_iff, List.any_eq_true, not_or,
      not_exists, not_and, Bool.not_eq_false] at h
    rw [clean_flag]
    exact ⟨fun hd ↦ ⟨h.1.1, h.1.2, h.2, hd⟩, fun hok ↦ hok.distinct⟩

/-- An evidence item of the profile, whose issuer is one of the given ones. -/
structure EvidenceOk (rt : Runtime) (issuerIds : List JsString) (evidence : Json) : Prop where
  keys : exactKeys (some evidence) evidenceKeys = true
  texts : ∀ name ∈ evidenceTextMembers, isNonEmptyString (get (some evidence) (js name)) = true
  evidenceType :
    evidenceTypePattern.test (stringOf (get (some evidence) (js "evidence_type"))) = true
  mediaType : mediaTypePattern.test (stringOf (get (some evidence) (js "media_type"))) = true
  sourceClass : isOneOf sourceClasses (get (some evidence) (js "source_class")) = true
  issuerRef : isOneOf issuerIds (get (some evidence) (js "issuer_ref")) = true
  contentDigest : validDigest (get (some evidence) (js "content_digest")) = true
  locator : LocatorOk rt (get (some evidence) (js "locator"))
  claimScope : ScopeOk (get (some evidence) (js "claim_scope"))
  disclosure : isOneOf disclosures (get (some evidence) (js "disclosure")) = true
  extensions : isObject (get (some evidence) (js "extensions")) = true
  digest : DigestMatches rt (membersOf (some evidence))

theorem clean_verifyEvidence {rt : Runtime} {issuerIds : List JsString} {evidence : Json}
    {path : JsString} :
    (verifyEvidence rt issuerIds evidence path).Clean ↔ EvidenceOk rt issuerIds evidence := by
  unfold verifyEvidence
  split
  · next members =>
    simp only [Check.clean_all, List.forall_mem_cons, List.not_mem_nil, false_imp_iff,
      implies_true, and_true, List.forall_mem_map, clean_flag, clean_requireText,
      clean_requireObject, Bool.not_eq_false', clean_verifyLocator, clean_verifyClaimScope,
      clean_verifyObjectDigest]
    constructor
    · rintro ⟨h₁, h₂, h₃, h₄, h₅, h₆, h₇, h₈, h₉, h₁₀, h₁₁, h₁₂⟩
      obtain ⟨t, ht, -⟩ := isNonEmptyString_iff.mp (h₂ "evidence_type" (by decide))
      obtain ⟨m, hm, -⟩ := isNonEmptyString_iff.mp (h₂ "media_type" (by decide))
      rw [ht, clean_requirePattern_str] at h₃
      rw [hm, clean_requirePattern_str] at h₄
      exact ⟨h₁, h₂, by simpa [get, ht, stringOf] using h₃,
        by simpa [get, hm, stringOf] using h₄, h₅, h₆, h₇, h₈, h₉, h₁₀, h₁₁, h₁₂⟩
    · rintro ⟨h₁, h₂, h₃, h₄, h₅, h₆, h₇, h₈, h₉, h₁₀, h₁₁, h₁₂⟩
      obtain ⟨t, ht, -⟩ := isNonEmptyString_iff.mp (h₂ "evidence_type" (by decide))
      obtain ⟨m, hm, -⟩ := isNonEmptyString_iff.mp (h₂ "media_type" (by decide))
      simp only [get] at ht hm
      simp only [get, ht, stringOf] at h₃
      simp only [get, hm, stringOf] at h₄
      refine ⟨h₁, h₂, ?_, ?_, h₅, h₆, h₇, h₈, h₉, h₁₀, h₁₁, h₁₂⟩
      · rwa [ht, clean_requirePattern_str]
      · rwa [hm, clean_requirePattern_str]
  · next h =>
    simp only [clean_flag, Bool.true_eq_false, false_iff]
    intro hok
    obtain ⟨ms, hms, -⟩ := exactKeys_iff.mp hok.keys
    exact h ms (Option.some.inj hms)

/-- A relationship of the profile. -/
structure RelationshipOk (rt : Runtime) (relationship : Json) : Prop where
  keys : exactKeys (some relationship) relationshipKeys = true
  texts : ∀ name ∈ relationshipTextMembers,
    isNonEmptyString (get (some relationship) (js name)) = true
  relationshipType :
    isOneOf relationshipTypes (get (some relationship) (js "relationship_type")) = true
  refs : ∀ name ∈ ["from_ref", "to_ref"],
    relationshipRefPattern.test (stringOf (get (some relationship) (js name))) = true
  distinct : get (some relationship) (js "from_ref") ≠ get (some relationship) (js "to_ref")
  vocabulary : validateRelationshipVocabulary
    (stringOf (get (some relationship) (js "relationship_type")))
    (get (some relationship) (js "from_ref")) (get (some relationship) (js "to_ref")) = []
  extensions : isObject (get (some relationship) (js "extensions")) = true
  digest : DigestMatches rt (membersOf (some relationship))

theorem clean_verifyRelationshipVocabulary {rt : Runtime} {members : Members} {path : JsString}
    (htype : isOneOf relationshipTypes (member members (js "relationship_type")) = true)
    {fromRef toRef : JsString} (hfrom : member members (js "from_ref") = some (.str fromRef))
    (hto : member members (js "to_ref") = some (.str toRef))
    (hfromPattern : relationshipRefPattern.test fromRef = true)
    (htoPattern : relationshipRefPattern.test toRef = true) :
    (verifyRelationshipVocabulary rt members path).Clean ↔
      validateRelationshipVocabulary (stringOf (member members (js "relationship_type")))
        (some (.str fromRef)) (some (.str toRef)) = [] := by
  simp [verifyRelationshipVocabulary, htype, hfrom, hto, textOrEmpty, toText, hfromPattern,
    htoPattern, Check.Clean]

theorem clean_verifyRelationship {rt : Runtime} {relationship : Json} {path : JsString} :
    (verifyRelationship rt relationship path).Clean ↔ RelationshipOk rt relationship := by
  unfold verifyRelationship
  split
  · next members =>
    simp only [Check.clean_all, List.forall_mem_cons, List.not_mem_nil, false_imp_iff,
      implies_true, and_true, List.forall_mem_map, clean_flag, clean_requireText,
      clean_requireObject, Bool.not_eq_false', clean_verifyObjectDigest]
    constructor
    · rintro ⟨h₁, h₂, h₃, ⟨h₄, h₅⟩, h₆, h₇, h₈, h₉⟩
      obtain ⟨s, hs, -⟩ := isNonEmptyString_iff.mp (h₂ "from_ref" (by decide))
      obtain ⟨t, ht, -⟩ := isNonEmptyString_iff.mp (h₂ "to_ref" (by decide))
      rw [hs, clean_requirePattern_str] at h₄
      rw [ht, clean_requirePattern_str] at h₅
      rw [clean_verifyRelationshipVocabulary h₃ hs ht h₄ h₅] at h₇
      refine ⟨h₁, h₂, h₃, ?_, ?_, ?_, h₈, h₉⟩
      · simpa [get, hs, ht, stringOf] using ⟨h₄, h₅⟩
      · rw [hs, ht] at h₆
        simpa [get, hs, ht, strictEqual] using h₆
      · simpa only [get, hs, ht] using h₇
    · rintro ⟨h₁, h₂, h₃, h₄, h₆, h₇, h₈, h₉⟩
      obtain ⟨s, hs, -⟩ := isNonEmptyString_iff.mp (h₂ "from_ref" (by decide))
      obtain ⟨t, ht, -⟩ := isNonEmptyString_iff.mp (h₂ "to_ref" (by decide))
      simp only [get] at hs ht h₆ h₇
      simp only [get, List.forall_mem_cons, hs, ht, stringOf] at h₄
      obtain ⟨hfrom, hto, -⟩ := h₄
      rw [hs, ht] at h₆ h₇
      refine ⟨h₁, h₂, h₃, ⟨?_, ?_⟩, ?_, ?_, h₈, h₉⟩
      · rwa [hs, clean_requirePattern_str]
      · rwa [ht, clean_requirePattern_str]
      · rw [hs, ht]
        simpa [strictEqual] using h₆
      · exact (clean_verifyRelationshipVocabulary h₃ hs ht hfrom hto).mpr h₇
  · next h =>
    simp only [clean_flag, Bool.true_eq_false, false_iff]
    intro hok
    obtain ⟨ms, hms, -⟩ := exactKeys_iff.mp hok.keys
    exact h ms (Option.some.inj hms)

/-- A proof target of the profile. -/
structure TargetOk (target : Option Json) : Prop where
  targetType : isOneOf targetTypes (get target (js "target_type")) = true
  keys : exactKeys target (targetExpectedKeys (get target (js "target_type"))) = true
  targetId : isText (get target (js "target_type")) (js "BUNDLE_PAYLOAD") = false →
    isNonEmptyString (get target (js "target_id")) = true
  noTargetId : isText (get target (js "target_type")) (js "BUNDLE_PAYLOAD") = true →
    get target (js "target_id") = none
  digest : validDigest (get target (js "digest")) = true

theorem clean_verifyProofTarget {target : Option Json} {path : JsString} :
    (verifyProofTarget target path).Clean ↔ TargetOk target := by
  unfold verifyProofTarget
  split
  · next members =>
    simp only [Check.clean_all, List.forall_mem_cons, List.not_mem_nil, false_imp_iff,
      implies_true, and_true, clean_flag, Bool.not_eq_false']
    constructor
    · rintro ⟨h₁, h₂, h₃, h₄, h₅⟩
      refine ⟨h₁, h₂, fun h ↦ ?_, fun h ↦ ?_, h₅⟩ <;> simp only [get] at h ⊢
      · simpa [h] using h₄
      · simpa [h] using h₃
    · rintro ⟨h₁, h₂, h₃, h₄, h₅⟩
      simp only [get] at h₃ h₄
      refine ⟨h₁, h₂, ?_, ?_, h₅⟩ <;>
        cases h : isText (member members (js "target_type")) (js "BUNDLE_PAYLOAD") <;> simp_all
  · next h =>
    simp only [clean_flag, Bool.true_eq_false, false_iff]
    intro hok
    obtain ⟨ms, hms, -⟩ := exactKeys_iff.mp hok.keys
    exact h ms hms

/-- A proof of the profile, before its signature is verified. -/
structure ProofOk (issuerIds : List JsString) (proof : Members) : Prop where
  keys : exactKeys (some (.obj proof)) proofKeys = true
  proofId : isNonEmptyString (member proof (js "proof_id")) = true
  proofType : isText (member proof (js "proof_type")) (js "SIGNATURE") = true
  target : TargetOk (member proof (js "target"))
  issuerRef : isOneOf issuerIds (member proof (js "issuer_ref")) = true
  method : isVerificationMethod (member proof (js "verification_method")) = true
  createdAt : validUtcTimestamp (member proof (js "created_at")) = true
  algorithm : isText (member proof (js "algorithm")) (js "Ed25519") = true
  proofValue : canonicalBase64url (member proof (js "proof_value")) = true

theorem clean_verifyProofShape {issuerIds : List JsString} {proof : Members} {path : JsString} :
    (verifyProofShape issuerIds proof path).Clean ↔ ProofOk issuerIds proof := by
  simp only [verifyProofShape, Check.clean_all, List.forall_mem_cons, List.not_mem_nil,
    false_imp_iff, implies_true, and_true, clean_flag, clean_requireText, Bool.not_eq_false',
    clean_verifyProofTarget]
  constructor
  · rintro ⟨h₁, h₂, h₃, h₄, h₅, h₆, h₇, h₈, h₉⟩
    exact ⟨h₁, h₂, h₃, h₄, h₅, h₆, h₇, h₈, h₉⟩
  · rintro ⟨h₁, h₂, h₃, h₄, h₅, h₆, h₇, h₈, h₉⟩
    exact ⟨h₁, h₂, h₃, h₄, h₅, h₆, h₇, h₈, h₉⟩

end TimeProofs.Core
