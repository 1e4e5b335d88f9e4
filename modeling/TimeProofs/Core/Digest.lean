import TimeProofs.Core.Constants
import TimeProofs.Core.Ecma

/-!
# Digests and the signing input

`packages/core/src/digest.mjs` and `packages/core/src/signature-input.mjs`. An error is the
message of the `TypeError` that canonicalization throws.
-/

namespace TimeProofs.Core

open TimeProofs.Base TimeProofs.Json

/-- `sha256Hex`, `digest.mjs:6–8`. -/
def sha256Hex (rt : Runtime) (bytes : List UInt8) : JsString := hexText (rt.sha256 bytes).bytes

/-- The hexadecimal text of a digest determines the digest. -/
theorem sha256_of_sha256Hex {rt : Runtime} {x y : List UInt8}
    (h : sha256Hex rt x = sha256Hex rt y) : rt.sha256 x = rt.sha256 y := by
  have hbytes := hexText_inj h
  cases hx : rt.sha256 x
  cases hy : rt.sha256 y
  rw [hx, hy] at hbytes
  cases hbytes
  rfl

/-- The digest object of a hexadecimal SHA-256 value. -/
def digestObject (hex : JsString) : Json :=
  .obj [(js "algorithm", .str (js "sha-256")), (js "value", .str hex)]

/-- `digestValue`, `digest.mjs:10–15`. -/
def digestValue (rt : Runtime) (v : Json) : Except JsString Json :=
  (canonicalizeBytes rt.numberToString v).map fun bytes ↦ digestObject (sha256Hex rt bytes)

/-- `withoutMember`, `digest.mjs:17–26`, on an object. -/
def withoutMember (members : Members) (memberName : JsString) : Members :=
  members.filter fun m ↦ m.1 ≠ memberName

/-- `calculateObjectDigest`, `digest.mjs:28–30`. -/
def calculateObjectDigest (rt : Runtime) (object : Members) : Except JsString Json :=
  digestValue rt (.obj (withoutMember object (js "object_digest")))

/-- `calculatePayloadDigest`, `digest.mjs:32–35`. -/
def calculatePayloadDigest (rt : Runtime) (bundleOrPayload : Members) : Except JsString Json :=
  digestValue rt ((member bundleOrPayload (js "payload")).getD (.obj bundleOrPayload))

/-- `digestEquals`, `digest.mjs:37–43`. -/
def digestEquals (left right : Option Json) : Bool :=
  truthy left && truthy right &&
    strictEqual (get left (js "algorithm")) (get right (js "algorithm")) &&
    strictEqual (get left (js "value")) (get right (js "value"))

/-- `SIGNATURE_DOMAIN`. -/
def signatureDomain : JsString := js "org.timeproofs.signature.v0.1"

/-- The value of a member that canonicalization requires to be defined. -/
def definedMember (key : JsString) (v : Option Json) : Except JsString Json :=
  match v with
  | some v => .ok v
  | none => .error (js "UNSUPPORTED_JSON_VALUE at $." ++ key)

/-- The object that is signed, `signature-input.mjs:6–12`. -/
def signatureInputObject (specVersion profile targetType targetDigest : Json) : Json :=
  .obj [(js "domain", .str signatureDomain), (js "profile", profile),
    (js "spec_version", specVersion), (js "target_digest", targetDigest),
    (js "target_type", targetType)]

/-- `buildSignatureInput`, `signature-input.mjs:5–13`. -/
def buildSignatureInput (rt : Runtime)
    (specVersion profile targetType targetDigest : Option Json) :
    Except JsString (List UInt8) := do
  let profile ← definedMember (js "profile") profile
  let specVersion ← definedMember (js "spec_version") specVersion
  let targetDigest ← definedMember (js "target_digest") targetDigest
  let targetType ← definedMember (js "target_type") targetType
  canonicalizeBytes rt.numberToString
    (signatureInputObject specVersion profile targetType targetDigest)

end TimeProofs.Core
