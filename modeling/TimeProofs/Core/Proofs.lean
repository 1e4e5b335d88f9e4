import TimeProofs.Core.Digest
import TimeProofs.Core.ErrorCodes

/-!
# Signature proofs

`packages/core/src/proofs.mjs`: resolving a proof target in a bundle, creating a signature
proof and verifying one. `Array.prototype.find` stops at the first match and reads a member of
every element before it, which throws on `null`.
-/

namespace TimeProofs.Core

open TimeProofs.Base TimeProofs.Json

/-- `items.find((item) => item[idField] === id)`. -/
def findById (idField : JsString) (id : Option Json) : List Json → Except Thrown (Option Json)
  | [] => .ok none
  | .null :: _ => .error .memberOfNull
  | item :: rest =>
    if strictEqual (get (some item) idField) id then .ok (some item)
    else findById idField id rest

/-- What `resolveTarget` returns. -/
structure Resolved where
  id : Option Json
  digest : Option Json
  value : Json

/-- The own entries of `mapping`, `proofs.mjs:28–32`: a collection and its id field. -/
def targetCollection (targetType : JsString) : Option (JsString × JsString) :=
  if targetType = js "OUTCOME_EVENT" then some (js "events", js "event_id")
  else if targetType = js "EVIDENCE_ITEM" then some (js "evidence", js "evidence_id")
  else if targetType = js "RELATIONSHIP" then some (js "relationships", js "relationship_id")
  else none

/-- The names that an object literal inherits; each inherited value is truthy. -/
def objectPrototypeNames : List JsString :=
  [js "constructor", js "toString", js "toLocaleString", js "valueOf", js "hasOwnProperty",
    js "isPrototypeOf", js "propertyIsEnumerable", js "__proto__", js "__defineGetter__",
    js "__defineSetter__", js "__lookupGetter__", js "__lookupSetter__"]

/-- `resolveTarget`, `proofs.mjs:18–43`, on a bundle whose payload is an object. -/
def resolveTarget (rt : Runtime) (bundle : Members) (target : Option Json) :
    Except Thrown (Option Resolved) :=
  let payload := membersOf (member bundle (js "payload"))
  if !isObject target && !isArray target then .ok none
  else
    let targetType := get target (js "target_type")
    if isText targetType (js "BUNDLE_PAYLOAD") then
      match calculatePayloadDigest rt bundle with
      | .error message => .error (.typeError message)
      | .ok digest => .ok (some
          { id := member payload (js "bundle_id")
            digest := some digest
            value := .obj payload })
    else
      match textOf rt targetType with
      | .error thrown => .error thrown
      | .ok key =>
        match targetCollection key with
        | none =>
          -- an inherited name finds a value that does not destructure as a pair
          if key ∈ objectPrototypeNames then .error .notIterable else .ok none
        | some (collectionName, idField) =>
          match findById idField (get target (js "target_id"))
              (itemsOf (member payload collectionName)) with
          | .error thrown => .error thrown
          | .ok none => .ok none
          | .ok (some object) =>
            if truthy (some object) then .ok (some
              { id := get (some object) idField
                digest := get (some object) (js "object_digest")
                value := object })
            else .ok none

/-- The issuer id and the key id of a verification method, `proofs.mjs:85–88`: the parts around
the last number sign, neither of them empty. -/
def splitVerificationMethod (method : JsString) : Option (JsString × JsString) :=
  let keyId := (method.reverse.takeWhile (· ≠ 0x23)).reverse
  let issuerId := (method.reverse.dropWhile (· ≠ 0x23)).tail.reverse
  if issuerId ≠ [] ∧ keyId ≠ [] then some (issuerId, keyId) else none

/-- `base64urlDecodeCanonical`, `proofs.mjs:9–16`. -/
def base64urlDecodeCanonical : Option Json → Except JsString (List UInt8)
  | some (.str s) =>
    if base64urlPattern.test s && decode64 s ≠ [] && encode64 (decode64 s) = s then
      .ok (decode64 s)
    else .error (js "INVALID_BASE64URL")
  | _ => .error (js "INVALID_BASE64URL")

/-- What `verifySignatureProof` returns. -/
inductive SignatureCheck where
  | valid
  | invalid (code : ErrorCode) (detail : Option JsString)

/-- The guarded part of `verifySignatureProof`, `proofs.mjs:98–112`. -/
def checkSignature (rt : Runtime) (payload proof : Members) (key : Json) : SignatureCheck :=
  let target := member proof (js "target")
  match buildSignatureInput rt (member payload (js "spec_version")) (member payload (js "profile"))
      (get target (js "target_type")) (get target (js "digest")) with
  | .error message => .invalid .signatureProcessingError (some message)
  | .ok input =>
    match rt.createPublicKey (get (some key) (js "public_key")) with
    | .error message => .invalid .signatureProcessingError (some message)
    | .ok publicKey =>
      if publicKey.asymmetricKeyType ≠ js "ed25519" then .invalid .publicKeyInvalid none
      else
        match base64urlDecodeCanonical (member proof (js "proof_value")) with
        | .error message => .invalid .signatureProcessingError (some message)
        | .ok signature =>
          match rt.verify input publicKey signature with
          | .error message => .invalid .signatureProcessingError (some message)
          | .ok true => .valid
          | .ok false => .invalid .signatureInvalid none

/-- Whether a bound of the key's validity excludes the proof, `proofs.mjs:95–96`. The times are
only read when the bound is set. -/
def outsideBound (rt : Runtime) (bound createdAt : Option Json)
    (excludes : Option Int → Option Int → Bool) : Except Thrown Bool :=
  if truthy bound then do
    let created ← dateParseOf rt createdAt
    let limit ← dateParseOf rt bound
    .ok (excludes created limit)
  else .ok false

/-- The checks of a proof against the key it names, `proofs.mjs:93–112`. -/
def verifyWithKey (rt : Runtime) (payload proof : Members) (key : Json) :
    Except Thrown SignatureCheck :=
  let createdAt := member proof (js "created_at")
  if !isText (member proof (js "algorithm")) (js "Ed25519") ||
      !isText (get (some key) (js "algorithm")) (js "Ed25519") then
    .ok (.invalid .unsupportedSignatureAlgorithm none)
  else if !isText (get (some key) (js "format")) (js "spki-pem") then
    .ok (.invalid .unsupportedPublicKeyFormat none)
  else
    match outsideBound rt (get (some key) (js "valid_from")) createdAt
        fun created limit ↦ timeBefore created limit with
    | .error thrown => .error thrown
    | .ok true => .ok (.invalid .proofCreatedBeforeKeyValidity none)
    | .ok false =>
      match outsideBound rt (get (some key) (js "valid_until")) createdAt
          fun created limit ↦ timeBefore limit created with
      | .error thrown => .error thrown
      | .ok true => .ok (.invalid .proofCreatedAfterKeyValidity none)
      | .ok false => .ok (checkSignature rt payload proof key)

/-- `issuer.keys?.find((candidate) => candidate.key_id === keyId)`. -/
def findKey (issuer : Json) (keyId : JsString) : Except Thrown (Option Json) :=
  match get (some issuer) (js "keys") with
  | none => .ok none
  | some .null => .ok none
  | some (.arr keys) => findById (js "key_id") (some (.str keyId)) keys
  | some _ => .error .notAFunction

/-- The checks of a proof whose target resolved, `proofs.mjs:85–112`. -/
def verifyWithIssuer (rt : Runtime) (payload proof : Members) (issuer : Option Json) :
    Except Thrown SignatureCheck :=
  match member proof (js "verification_method") with
  | some (.str method) =>
    match splitVerificationMethod method with
    | none => .ok (.invalid .invalidVerificationMethod none)
    | some (issuerId, keyId) =>
      if !isText (member proof (js "issuer_ref")) issuerId ||
          !isText (get issuer (js "issuer_id")) issuerId then
        .ok (.invalid .proofIssuerMismatch none)
      else
        match findKey (issuer.getD .null) keyId with
        | .error thrown => .error thrown
        | .ok none => .ok (.invalid .verificationKeyNotFound none)
        | .ok (some key) => verifyWithKey rt payload proof key
  | _ => .ok (.invalid .invalidVerificationMethod none)

/-- `verifySignatureProof`, `proofs.mjs:80–113`. -/
def verifySignatureProof (rt : Runtime) (bundle proof : Members) (issuer : Option Json) :
    Except Thrown SignatureCheck :=
  let target := member proof (js "target")
  match resolveTarget rt bundle target with
  | .error thrown => .error thrown
  | .ok none => .ok (.invalid .proofTargetNotFound none)
  | .ok (some resolved) =>
    if !digestEquals resolved.digest (get target (js "digest")) then
      .ok (.invalid .proofTargetDigestMismatch none)
    else verifyWithIssuer rt (membersOf (member bundle (js "payload"))) proof issuer

/-- The arguments of `createSignatureProof`; `target` lists the members of the target. -/
structure ProofRequest where
  bundle : Members
  target : Members
  issuerRef : JsString
  keyId : JsString
  privateKeyPem : JsString
  proofId : JsString
  createdAt : JsString

/-- `createSignatureProof`, `proofs.mjs:45–78`. -/
def createSignatureProof (rt : Runtime) (request : ProofRequest) : Except Thrown Json := do
  let payload := membersOf (member request.bundle (js "payload"))
  let resolved ← resolveTarget rt request.bundle (some (.obj request.target))
  let digest ← match resolved.bind Resolved.digest with
    | some digest =>
      if truthy (some digest) then .ok digest
      else .error (.typeError (js "UNRESOLVED_PROOF_TARGET"))
    | none => .error (.typeError (js "UNRESOLVED_PROOF_TARGET"))
  let input ← (buildSignatureInput rt (member payload (js "spec_version"))
    (member payload (js "profile")) (member request.target (js "target_type"))
    (some digest)).mapError .typeError
  let privateKey ← (rt.createPrivateKey request.privateKeyPem).mapError .typeError
  if privateKey.asymmetricKeyType ≠ js "ed25519" then
    .error (.typeError (js "PRIVATE_KEY_NOT_ED25519"))
  else
    .ok (.obj [(js "proof_id", .str request.proofId), (js "proof_type", .str (js "SIGNATURE")),
      (js "target", .obj (withoutMember request.target (js "digest") ++ [(js "digest", digest)])),
      (js "issuer_ref", .str request.issuerRef),
      (js "verification_method", .str (request.issuerRef ++ js "#" ++ request.keyId)),
      (js "created_at", .str request.createdAt), (js "algorithm", .str (js "Ed25519")),
      (js "proof_value", .str (encode64 (rt.sign input privateKey)))])

end TimeProofs.Core
