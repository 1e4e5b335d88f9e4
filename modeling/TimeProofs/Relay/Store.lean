import TimeProofs.Base.Call
import TimeProofs.Core.Builders
import TimeProofs.Relay.Packet
import TimeProofs.StripeConnector.Normalize

/-!
# The relay store

`packages/relay/src/store.mjs` as one caller sees it when nothing else runs. A store is the
content of its files; each file is replaced as a whole. A call that waits for a lock that it
holds itself never settles.
-/

namespace TimeProofs.Relay

open TimeProofs.Base TimeProofs.Json TimeProofs.Core TimeProofs.VerdictEngine
  TimeProofs.StripeConnector

/-- `metadata.json` of an action. -/
structure Metadata where
  actionId : JsString
  ruleset : JsString
  revision : Nat
  correlations : Members
  seenUpstreamEventIds : List JsString
  createdAt : Option Json
  updatedAt : Option Json

/-- `current.json` of an action. -/
structure CurrentSummary where
  actionId : Option Json
  bundleId : Option Json
  payloadDigest : Option Json
  structuralStatus : Status
  verdict : Verdict
  reasons : List JsString
  decisiveEvents : List (Option Json)
  missingEvidence : List JsString
  updatedAt : Option Json

/-- The files of an action; `revisions` lists the directory of that name, in no particular
order. -/
structure ActionFiles where
  metadata : Option Metadata
  current : Option CurrentSummary
  revisions : List (JsString × Json)

/-- The data directory: the actions by directory name, and `stripe-refunds.json`. -/
structure Store where
  actions : JsString → ActionFiles
  stripeIndex : List (JsString × JsString)

/-- The directory after `init`. -/
def Store.empty : Store := ⟨fun _ ↦ ⟨none, none, []⟩, []⟩

/-- `actionKey`, `store.mjs:13–15`. -/
def actionKey (host : Host) (actionId : JsString) : JsString :=
  sha256Hex host.toRuntime (utf8 actionId)

/-- The name of a revision file, `store.mjs:132`. -/
def revisionFile (revision : Nat) : JsString := padStart 6 (decimal revision) ++ js ".bundle.json"

/-- What a metadata file holds of a value: its JSON text read back. -/
def Metadata.stored (m : Metadata) : Metadata :=
  { m with correlations := cloneMembers m.correlations }

/-- The files of an action after a change. -/
def Store.update (s : Store) (key : JsString) (change : ActionFiles → ActionFiles) : Store :=
  { s with actions := fun k ↦ if k = key then change (s.actions k) else s.actions k }

/-- `writeJsonAtomic` of a revision file. -/
def Store.writeRevision (s : Store) (key file : JsString) (bundle : Members) : Store :=
  s.update key fun files ↦
    { files with revisions := setMember files.revisions file (clone (.obj bundle)) }

/-- `writeJsonAtomic` of `current.json`. -/
def Store.writeCurrent (s : Store) (key : JsString) (current : CurrentSummary) : Store :=
  s.update key fun files ↦ { files with current := some current }

/-- `writeJsonAtomic` of `metadata.json`. -/
def Store.writeMetadata (s : Store) (key : JsString) (metadata : Metadata) : Store :=
  s.update key fun files ↦ { files with metadata := some metadata.stored }

/-- The codes of `RelayStoreError`. -/
inductive StoreErrorCode where
  | actionIdInvalid | actionAlreadyExists | actionNotFound | stripeRefundIdInvalid
  | stripeRefundAlreadyLinked
deriving DecidableEq

/-- The code as the store spells it. -/
def StoreErrorCode.text : StoreErrorCode → String
  | .actionIdInvalid => "ACTION_ID_INVALID"
  | .actionAlreadyExists => "ACTION_ALREADY_EXISTS"
  | .actionNotFound => "ACTION_NOT_FOUND"
  | .stripeRefundIdInvalid => "STRIPE_REFUND_ID_INVALID"
  | .stripeRefundAlreadyLinked => "STRIPE_REFUND_ALREADY_LINKED"

/-- The codes of `RelayServiceError`; those of a webhook that does not pass its checks are the
codes of the connector and of the strict parser. -/
inductive ServiceErrorCode where
  | actionBodyInvalid | actionIdInvalid | correlationsInvalid | rulesetNotSupported
  | entityInvalid | stripeWebhookSecretNotConfigured | stripeRefundNotLinked
  | stripe (code : StripeErrorCode)
  | strictJson (code : ErrorCode)
deriving DecidableEq

/-- The code as the service spells it. -/
def ServiceErrorCode.text : ServiceErrorCode → String
  | .actionBodyInvalid => "ACTION_BODY_INVALID"
  | .actionIdInvalid => "ACTION_ID_INVALID"
  | .correlationsInvalid => "CORRELATIONS_INVALID"
  | .rulesetNotSupported => "RULESET_NOT_SUPPORTED"
  | .entityInvalid => "ENTITY_INVALID"
  | .stripeWebhookSecretNotConfigured => "STRIPE_WEBHOOK_SECRET_NOT_CONFIGURED"
  | .stripeRefundNotLinked => "STRIPE_REFUND_NOT_LINKED"
  | .stripe code => code.text
  | .strictJson code => code.text

/-- What a call of the relay rejects with. -/
inductive Rejection where
  | service (code : ServiceErrorCode) (message : JsString) (statusCode : Nat)
  | store (code : StoreErrorCode) (message : JsString)
  | other (thrown : Thrown)

/-- A call on the store. -/
abbrev StoreCall := Call Store Rejection

/-! ### Operations -/

/-- A value of the refund index: an action id, or what the index inherits from
`Object.prototype`. -/
inductive IndexValue where
  | actionId (id : JsString)
  | inherited
deriving DecidableEq

/-- `index[refundId]`. -/
def indexValue (index : List (JsString × JsString)) (refundId : JsString) : Option IndexValue :=
  match lookup index refundId with
  | some actionId => some (.actionId actionId)
  | none => if refundId ∈ objectPrototypeNames then some .inherited else none

/-- `index[refundId] = actionId`. -/
def setIndex : List (JsString × JsString) → JsString → JsString → List (JsString × JsString)
  | [], refundId, actionId => [(refundId, actionId)]
  | (name, linked) :: rest, refundId, actionId =>
    if name = refundId then (refundId, actionId) :: rest
    else (name, linked) :: setIndex rest refundId actionId

/-- `index[refundId]` belongs to another action, `store.mjs:115`. -/
def linkedElsewhere (index : List (JsString × JsString)) (refundId actionId : JsString) : Bool :=
  match indexValue index refundId with
  | some (.actionId linked) => linked ≠ [] && linked ≠ actionId
  | some .inherited => true
  | none => false

/-- `validateActionId` and `paths`, `store.mjs:17–21` and `54–63`. -/
def paths (host : Host) : IndexValue → Except Rejection JsString
  | .actionId actionId =>
    if 1 ≤ actionId.length ∧ actionId.length ≤ 240 then .ok (actionKey host actionId)
    else .error (.store .actionIdInvalid
      (js "action_id must be a non-empty string of at most 240 characters."))
  | .inherited => .error (.store .actionIdInvalid
      (js "action_id must be a non-empty string of at most 240 characters."))

/-- `withLock`, `store.mjs:65–78`, for a caller that holds the given locks. -/
def withLock {α : Type} (held : List JsString) (name : JsString)
    (callback : List JsString → StoreCall α) : StoreCall α :=
  if name ∈ held then Call.wait else callback (name :: held)

/-- The key of the lock on the refund index. -/
def stripeIndexLock : JsString := js "__stripe_refund_index__"

/-- What `getAction` returns. -/
structure Snapshot where
  metadata : Metadata
  bundle : Json
  current : CurrentSummary

/-- The text of an index value in a template string; only action ids occur there. -/
def IndexValue.text : IndexValue → JsString
  | .actionId id => id
  | .inherited => []

/-- The rejection of a missing file, `store.mjs:136`. -/
def actionNotFound (actionId : IndexValue) : Rejection :=
  .store .actionNotFound (js "Action " ++ actionId.text ++ js " was not found.")

/-- The content of a file that `getAction` reads. -/
def readFile {α : Type} (actionId : IndexValue) (file : Store → Option α) : StoreCall α := do
  match ← Call.read file with
  | some content => return content
  | none => Call.reject (actionNotFound actionId)

/-- `getAction`, `store.mjs:128–139`. -/
def getAction (host : Host) (actionId : IndexValue) : StoreCall Snapshot := do
  let key ← Call.ofExcept (paths host actionId)
  let metadata ← readFile actionId fun s ↦ (s.actions key).metadata
  let bundle ← readFile actionId fun s ↦
    member (s.actions key).revisions (revisionFile metadata.revision)
  let current ← readFile actionId fun s ↦ (s.actions key).current
  return { metadata, bundle, current }

/-- `registerStripeRefund`, `store.mjs:110–121`. -/
def registerStripeRefund (held : List JsString) (refundId : Json) (actionId : JsString) :
    StoreCall Unit :=
  match refundId with
  | .str refundId =>
    if refundId = [] then
      Call.reject (.store .stripeRefundIdInvalid (js "Stripe refund id is required."))
    else
      withLock held stripeIndexLock fun _ ↦ do
        let index ← Call.read Store.stripeIndex
        if linkedElsewhere index refundId actionId then
          Call.reject (.store .stripeRefundAlreadyLinked
            (js "Stripe refund " ++ refundId ++ js " is already linked to another action."))
        else
          Call.write fun s ↦ { s with stripeIndex := setIndex index refundId actionId }
  | _ => Call.reject (.store .stripeRefundIdInvalid (js "Stripe refund id is required."))

/-- `findByStripeRefundId`, `store.mjs:123–126`. -/
def findByStripeRefundId (refundId : JsString) : StoreCall (Option IndexValue) :=
  Call.read fun s ↦ indexValue s.stripeIndex refundId

/-- The arguments of `RelayStore.createAction`. -/
structure NewAction where
  actionId : JsString
  bundle : Members
  current : CurrentSummary
  ruleset : JsString
  correlations : Members

/-- The metadata of a new action, `store.mjs:93–101`. -/
def NewAction.metadata (a : NewAction) : Metadata :=
  let createdAt := get (member a.bundle (js "payload")) (js "created_at")
  { actionId := a.actionId, ruleset := a.ruleset, revision := 1, correlations := a.correlations,
    seenUpstreamEventIds := [], createdAt, updatedAt := createdAt }

/-- A revision as the call that stored it returns it. -/
structure StoredRevision where
  metadata : Metadata
  bundle : Members
  current : CurrentSummary

/-- The refund that a new action is linked to, when its correlations name one. -/
def NewAction.stripeRefundId (a : NewAction) : Option Json :=
  (member a.correlations (js "stripe_refund_id")).filter fun refundId ↦ truthy (some refundId)

/-- The rejection of an action that exists, `store.mjs:91`. -/
def actionAlreadyExists (actionId : JsString) : Rejection :=
  .store .actionAlreadyExists (js "Action " ++ actionId ++ js " already exists.")

/-- The link of a new action's refund, `store.mjs:106`. -/
def linkRefund (held : List JsString) (a : NewAction) : StoreCall Unit :=
  match a.stripeRefundId with
  | some refundId => registerStripeRefund held refundId a.actionId
  | none => pure ()

/-- `RelayStore.createAction`, `store.mjs:89–108`. -/
def createAction (host : Host) (a : NewAction) : StoreCall StoredRevision :=
  withLock [] a.actionId fun held ↦ do
    let key ← Call.ofExcept (paths host (.actionId a.actionId))
    if (← Call.read fun s ↦ (s.actions key).metadata).isSome then
      Call.reject (actionAlreadyExists a.actionId)
    else
      Call.write fun s ↦ s.writeRevision key (revisionFile 1) a.bundle
      Call.write fun s ↦ s.writeCurrent key a.current
      Call.write fun s ↦ s.writeMetadata key a.metadata
      linkRefund held a
      return { metadata := a.metadata, bundle := a.bundle, current := a.current }

/-- The arguments of `appendRevision`. -/
structure NewRevision where
  actionId : JsString
  bundle : Members
  current : CurrentSummary
  upstreamEventId : Option JsString

/-- The event id under which a webhook is remembered; the empty one is not. -/
def NewRevision.remembered (r : NewRevision) : Option JsString :=
  match r.upstreamEventId with
  | some id => if id = [] then none else some id
  | none => none

/-- The metadata after a revision, `store.mjs:148–155`. -/
def NewRevision.metadata (r : NewRevision) (existing : Metadata) : Metadata :=
  { existing with
    revision := existing.revision + 1
    updatedAt := get (member r.bundle (js "payload")) (js "created_at")
    seenUpstreamEventIds := existing.seenUpstreamEventIds ++ r.remembered.toList }

/-- An upstream event that the metadata remembers. -/
def NewRevision.isDuplicate (r : NewRevision) (existing : Metadata) : Bool :=
  match r.remembered with
  | some id => id ∈ existing.seenUpstreamEventIds
  | none => false

/-- What `appendRevision` returns. -/
inductive Appended where
  | duplicate (existing : Snapshot)
  | revision (stored : StoredRevision)

/-- `appendRevision`, `store.mjs:141–163`. -/
def appendRevision (host : Host) (r : NewRevision) : StoreCall Appended :=
  withLock [] r.actionId fun _ ↦ do
    let existing ← getAction host (.actionId r.actionId)
    if r.isDuplicate existing.metadata then return .duplicate existing
    else
      let metadata := r.metadata existing.metadata
      let key ← Call.ofExcept (paths host (.actionId r.actionId))
      Call.write fun s ↦ s.writeRevision key (revisionFile metadata.revision) r.bundle
      Call.write fun s ↦ s.writeCurrent key r.current
      Call.write fun s ↦ s.writeMetadata key metadata
      return .revision { metadata, bundle := r.bundle, current := r.current }

end TimeProofs.Relay
