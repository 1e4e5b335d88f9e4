import TimeProofs.Base.Check
import TimeProofs.Base.Timestamp
import TimeProofs.Json.Canonicalize
import TimeProofs.Json.Number

/-!
# ECMAScript values at run time

What the core takes from its host: number printing, string coercion of objects, SHA-256, the
Ed25519 functions of `node:crypto`, URL parsing, dates outside the timestamp form and
`localeCompare` are given functions. Member access, equality, truthiness, string coercion and
iteration are those of the language. A missing value (`undefined`) is `none`.
-/

namespace TimeProofs.Core

open TimeProofs.Base TimeProofs.Json

/-- What leaves a function of the core by `throw`. -/
inductive Thrown where
  | typeError (message : JsString)
  | rangeError (message : JsString)
  | cannotConvertObject
  | notIterable
  | notAFunction
  | memberOfNull
  | invalidTime
deriving DecidableEq

/-- The 32 bytes of a SHA-256 digest. -/
structure Sha256Digest where
  bytes : List UInt8
  length_eq : bytes.length = 32

/-- A key object of `node:crypto`. -/
structure KeyObject where
  asymmetricKeyType : JsString
  material : List UInt8

/-- The given functions of the host. -/
structure Runtime where
  /-- `JSON.stringify(x)` and `String(x)` of a number. -/
  numberToString : Float → JsString
  /-- `String(o)` of an object; `none` when the coercion throws. -/
  coerceObject : Members → Option JsString
  sha256 : List UInt8 → Sha256Digest
  /-- `createPublicKey`, with the message of what it throws. -/
  createPublicKey : Option Json → Except JsString KeyObject
  /-- `createPrivateKey`, with the message of what it throws. -/
  createPrivateKey : JsString → Except JsString KeyObject
  /-- `sign(null, input, privateKey)`. -/
  sign : List UInt8 → KeyObject → List UInt8
  /-- `verify(null, input, publicKey, signature)`, with the message of what it throws. -/
  verify : List UInt8 → KeyObject → List UInt8 → Except JsString Bool
  /-- `new URL(s).protocol`; `none` when the constructor throws. -/
  urlProtocol : JsString → Option JsString
  /-- `Date.parse` of a string that is no accepted timestamp; `none` is NaN. -/
  parseOtherDate : JsString → Option Int
  localeCompare : JsString → JsString → Int

/-- The run on values of the strict parser, whose objects have no prototype. -/
def Runtime.withoutPrototypes (rt : Runtime) : Runtime := { rt with coerceObject := fun _ ↦ none }

/-- An object's own member of the given name. -/
def member : Members → JsString → Option Json
  | [], _ => none
  | (k, v) :: rest, key => if k = key then some v else member rest key

/-- `v?.key`, for names that no prototype has. -/
def get (v : Option Json) (key : JsString) : Option Json :=
  match v with
  | some (.obj members) => member members key
  | _ => none

/-- The members of an object, and none of any other value. -/
def membersOf : Option Json → Members
  | some (.obj members) => members
  | _ => []

/-- The elements of an array, and none of any other value. -/
def itemsOf : Option Json → List Json
  | some (.arr items) => items
  | _ => []

/-- `isPlainObject` on JSON data, `verify-bundle.mjs:42–46`. -/
def isObject : Option Json → Bool
  | some (.obj _) => true
  | _ => false

/-- `Array.isArray`. -/
def isArray : Option Json → Bool
  | some (.arr _) => true
  | _ => false

/-- `typeof v === 'string'`. -/
def isString : Option Json → Bool
  | some (.str _) => true
  | _ => false

/-- `typeof v === 'string' && v.length > 0`. -/
def isNonEmptyString : Option Json → Bool
  | some (.str s) => s ≠ []
  | _ => false

/-- `v === undefined || v === null`. -/
def isNullish : Option Json → Bool
  | none => true
  | some .null => true
  | _ => false

/-- `v === text` for a string of the source. -/
def isText (v : Option Json) (text : JsString) : Bool :=
  match v with
  | some (.str s) => s = text
  | _ => false

/-- `new Set(texts).has(v)`. -/
def isOneOf (texts : List JsString) (v : Option Json) : Bool :=
  match v with
  | some (.str s) => s ∈ texts
  | _ => false

/-- `Boolean(v)`. -/
def truthy : Option Json → Bool
  | none => false
  | some .null => false
  | some (.bool b) => b
  | some (.num x) => !(isZero x || x.isNaN)
  | some (.str s) => s ≠ []
  | some (.arr _) => true
  | some (.obj _) => true

/-- `v === w`. Arrays and objects in two places of JSON data are never identical. -/
def strictEqual : Option Json → Option Json → Bool
  | none, none => true
  | some .null, some .null => true
  | some (.bool b), some (.bool c) => b = c
  | some (.num x), some (.num y) => (x = y || (isZero x && isZero y)) && !x.isNaN
  | some (.str s), some (.str t) => s = t
  | _, _ => false

/-- Equality of set elements, under which NaN equals itself. -/
def sameValueZero : Option Json → Option Json → Bool
  | some (.num x), some (.num y) => x = y || (isZero x && isZero y)
  | v, w => strictEqual v w

/-! ### Coercion and iteration -/

mutual

/-- `String(v)`. -/
def toText (rt : Runtime) : Json → Except Thrown JsString
  | .null => .ok (js "null")
  | .bool b => .ok (if b then js "true" else js "false")
  | .num x => .ok (rt.numberToString x)
  | .str s => .ok s
  | .arr items => (collect (elementTexts rt items)).map (List.intercalate [valueSeparator])
  | .obj members =>
    match rt.coerceObject members with
    | some s => .ok s
    | none => .error .cannotConvertObject

/-- The texts that `Array.prototype.join` joins. -/
def elementTexts (rt : Runtime) : List Json → List (Except Thrown JsString)
  | [] => []
  | v :: rest =>
    (match v with
      | .null => .ok []
      | v => toText rt v) :: elementTexts rt rest

end

/-- `${v}` in a template string. -/
def textOf (rt : Runtime) : Option Json → Except Thrown JsString
  | none => .ok (js "undefined")
  | some v => toText rt v

/-- `String(v ?? '')`. -/
def textOrEmpty (rt : Runtime) : Option Json → Except Thrown JsString
  | none => .ok []
  | some .null => .ok []
  | some v => toText rt v

/-- `s.includes(part)`. -/
def includes (s part : JsString) : Bool := s.tails.any fun rest ↦ part.isPrefixOf rest

/-- The code points of a string, each as a string. -/
def codePoints : JsString → List JsString
  | [] => []
  | [c] => [[c]]
  | c :: next :: rest =>
    if isHighSurrogate c && isLowSurrogate next then [c, next] :: codePoints rest
    else [c] :: codePoints (next :: rest)

/-- The values that `for (… of v ?? [])` visits. -/
def iterate : Option Json → Except Thrown (List Json)
  | none => .ok []
  | some .null => .ok []
  | some (.arr items) => .ok items
  | some (.str s) => .ok ((codePoints s).map .str)
  | some _ => .error .notIterable

/-- `Date.parse(s)`; `none` is NaN. -/
def dateParse (rt : Runtime) (s : JsString) : Option Int :=
  if validTimestampText s then (readTimestamp s).map parsedTime else rt.parseOtherDate s

/-- `Date.parse(v)`. -/
def dateParseOf (rt : Runtime) (v : Option Json) : Except Thrown (Option Int) :=
  (textOf rt v).map (dateParse rt)

/-- `left < right` on times, with NaN on neither side of anything. -/
def timeBefore (left right : Option Int) : Bool :=
  match left, right with
  | some x, some y => x < y
  | _, _ => false

/-- `validUtcTimestamp`, `verify-bundle.mjs:62–77`. -/
def validUtcTimestamp : Option Json → Bool
  | some (.str s) => validTimestampText s
  | _ => false

/-- `compareTimestamps(left, right)` of two accepted timestamps, `verify-bundle.mjs:79–81`. -/
def compareTimestamps (left right : Option Json) : Int :=
  let parsed (v : Option Json) : Int :=
    match v with
    | some (.str s) => ((readTimestamp s).map parsedTime).getD 0
    | _ => 0
  parsed left - parsed right

/-- The magnitude of a finite double rounded down, and whether nothing was cut off. -/
def wholeMagnitude (mantissa : Nat) (exponent : Int) : Nat × Bool :=
  let shift := (-exponent).toNat
  (mantissa * 2 ^ exponent.toNat / 2 ^ shift, mantissa % 2 ^ shift = 0)

/-- `Math.trunc(x)` of a finite number, and whether `x` is an integer. -/
def wholePart (x : Float) : Option (Int × Bool) :=
  match x.toModel.unpack with
  | .zero _ => some (0, true)
  | .finite .positive mantissa exponent _ =>
    let (magnitude, exact) := wholeMagnitude mantissa exponent
    some (magnitude, exact)
  | .finite .negative mantissa exponent _ =>
    let (magnitude, exact) := wholeMagnitude mantissa exponent
    some (-magnitude, exact)
  | _ => none

/-- `Number.MAX_SAFE_INTEGER`. -/
def maxSafeInteger : Nat := 9007199254740991

/-- `Number.isSafeInteger(v)`. -/
def isSafeInteger : Option Json → Bool
  | some (.num x) =>
    match wholePart x with
    | some (n, true) => n.natAbs ≤ maxSafeInteger
    | _ => false
  | _ => false

/-- The largest time value. -/
def maxTime : Nat := 8640000000000000

/-- The time value of `new Date(x)`; `none` is NaN. -/
def dateOfNumber (x : Float) : Option Int :=
  match wholePart x with
  | some (n, _) => if n.natAbs ≤ maxTime then some n else none
  | none => none

example : dateOfNumber (numberOf (js "1500.7") * 1000) = some 1500700 := by decide
example : dateOfNumber (numberOf (js "-1.9")) = some (-1) := by decide
example : dateOfNumber (numberOf (js "1e16")) = none := by decide

/-- `date.toISOString()` of a date with the given time value. -/
def toIsoString : Option Int → Except Thrown JsString
  | some t => .ok (isoText t)
  | none => .error .invalidTime

/-- A natural number as a JSON number. -/
def natNumber (n : Nat) : Json := .num (Float.ofModel (Float.Model.ofScientific n 0))

end TimeProofs.Core
