import TimeProofs.Base.PromiseLock
import TimeProofs.Base.Run
import TimeProofs.Relay.Service

/-!
# A relay process

The calls of `service.mjs` and `store.mjs` as they interleave in one process. A call goes from
one file access to the next; between two accesses other calls may run. It waits for a lock until
every earlier caller of that lock has released. A crash ends every call and forgets the locks;
the files stay.
-/

namespace TimeProofs.Relay

open TimeProofs.Base TimeProofs.Json TimeProofs.Core TimeProofs.VerdictEngine
  TimeProofs.StripeConnector

/-- A call of the service or of its store. -/
inductive CallRequest where
  | recordAction (request : ActionRequest)
  | ingestStripeWebhook (request : WebhookRequest)
  | getAction (actionId : JsString)
  | listRevisions (actionId : JsString)
  | createAction (a : NewAction)
  | appendRevision (r : NewRevision)
  | registerStripeRefund (refundId : Json) (actionId : JsString)

/-- An entry of `listRevisions`, `store.mjs:171–176`. -/
structure RevisionEntry where
  revision : Nat
  bundleId : Option Json
  createdAt : Option Json
  predecessorBundleDigests : Option Json

/-- A webhook that passed its checks, with its request. -/
structure Delivery where
  request : WebhookRequest
  received : ReceivedWebhook

/-- What a call resolves to or rejects with; what answers a delivery names it and its action. -/
inductive Result where
  | recorded (response : Response)
  | delivered (delivery : Delivery) (actionId : JsString) (response : WebhookResponse)
  | snapshot (actionId : JsString) (found : Snapshot)
  | listing (actionId : JsString) (entries : List RevisionEntry)
  | created (stored : StoredRevision)
  | appended (revision : NewRevision) (answer : Appended)
  | linked
  | rejected (reason : Rejection)

/-- The call that stores a revision: for an action of the service with the time of its packet,
for a webhook with the revision that it read. -/
inductive Writer where
  | create (a : NewAction) (generatedAt : Option JsString)
  | append (r : NewRevision) (source : Option (Delivery × Snapshot))

def Writer.actionId : Writer → JsString
  | .create a _ => a.actionId
  | .append r _ => r.actionId

def Writer.bundle : Writer → Members
  | .create a _ => a.bundle
  | .append r _ => r.bundle

def Writer.current : Writer → CurrentSummary
  | .create a _ => a.current
  | .append r _ => r.current

/-- A new action whose refund is being linked, with its own lock still held. -/
structure Creating where
  action : NewAction
  generatedAt : Option JsString
  ticket : Nat

/-- What is done under a lock. -/
inductive Job where
  | store (writer : Writer)
  | link (refundId actionId : JsString) (creating : Option Creating)

/-- The lock of a job, `store.mjs:90`, `112` and `142`. -/
def Job.lock : Job → JsString
  | .store writer => writer.actionId
  | .link _ _ _ => stripeIndexLock

/-- The locks that the call holds before. -/
def Job.held : Job → List Nat
  | .store _ => []
  | .link _ _ creating => (creating.map Creating.ticket).toList

/-- The call that reads an action. -/
inductive Reader where
  | get
  | list
  | webhook (delivery : Delivery)
  | append (r : NewRevision) (source : Option (Delivery × Snapshot)) (ticket : Nat)

/-- What `getAction` has read so far. -/
inductive Progress where
  | start
  | metadata (metadata : Metadata)
  | bundle (metadata : Metadata) (bundle : Json)

/-- The files of a revision in the order of their writes. -/
inductive RevisionPart where
  | bundle
  | current
  | metadata
deriving DecidableEq

/-- A call between two file accesses: what it does next. -/
inductive Phase where
  | queueing (job : Job)
  | waiting (job : Job) (ticket : Nat)
  | reading (reader : Reader) (actionId : IndexValue) (key : JsString) (progress : Progress)
  | writing (writer : Writer) (ticket : Nat) (key : JsString) (metadata : Metadata)
      (next : RevisionPart)
  | linking (refundId actionId : JsString) (creating : Option Creating) (ticket : Nat)
      (index : List (JsString × JsString))
  | finding (delivery : Delivery)
  | listing (actionId key : JsString)
  | listingFiles (actionId key : JsString) (names : List JsString) (entries : List RevisionEntry)
  | settled (result : Result)
  | crashed

/-- The locks that a call has asked for and not released. -/
def Phase.tickets : Phase → List Nat
  | .queueing job => job.held
  | .waiting job ticket => ticket :: job.held
  | .reading (.append _ _ ticket) _ _ _ => [ticket]
  | .writing _ ticket _ _ _ => [ticket]
  | .linking _ _ creating ticket _ => ticket :: (creating.map Creating.ticket).toList
  | _ => []

/-- Whether a call has not ended. -/
def Phase.isRunning : Phase → Bool
  | .settled _ => false
  | .crashed => false
  | _ => true

/-- The rejection of a linked refund, `store.mjs:116`. -/
def refundLinkedElsewhere (refundId : JsString) : Rejection :=
  .store .stripeRefundAlreadyLinked
    (js "Stripe refund " ++ refundId ++ js " is already linked to another action.")

/-- The rejection of a refund id that is no non-empty string, `store.mjs:111`. -/
def refundIdInvalid : Rejection :=
  .store .stripeRefundIdInvalid (js "Stripe refund id is required.")

/-- How a call starts: the part before its first file access or lock. -/
def begin (host : Host) (relay : RelayService) : CallRequest → Phase
  | .recordAction request =>
    match prepareAction host relay request with
    | .ok a => .queueing (.store (.create a (some request.generatedAt)))
    | .error reason => .settled (.rejected reason)
  | .ingestStripeWebhook request =>
    match receiveWebhook host relay request with
    | .ok received => .finding ⟨request, received⟩
    | .error reason => .settled (.rejected reason)
  | .getAction actionId =>
    match paths host (.actionId actionId) with
    | .ok key => .reading .get (.actionId actionId) key .start
    | .error reason => .settled (.rejected reason)
  | .listRevisions actionId =>
    match paths host (.actionId actionId) with
    | .ok key => .reading .list (.actionId actionId) key .start
    | .error reason => .settled (.rejected reason)
  | .createAction a => .queueing (.store (.create a none))
  | .appendRevision r => .queueing (.store (.append r none))
  | .registerStripeRefund (.str refundId) actionId =>
    if refundId = [] then .settled (.rejected refundIdInvalid)
    else .queueing (.link refundId actionId none)
  | .registerStripeRefund _ _ => .settled (.rejected refundIdInvalid)

/-- The end of a call that has stored an action, `store.mjs:107` and `service.mjs:195`. -/
def createResult (host : Host) (a : NewAction) (generatedAt : Option JsString) : Result :=
  let stored := { metadata := a.metadata, bundle := a.bundle, current := a.current }
  match generatedAt with
  | none => .created stored
  | some generatedAt =>
    match throwing (packetOf host a.bundle refundRuleset generatedAt) with
    | .ok packet => .recorded { stored, packet }
    | .error reason => .rejected reason

/-- The end of a call that has appended a revision, or found it appended, `store.mjs:144` and
`161` and `service.mjs:269`. -/
def appendResult (host : Host) (r : NewRevision) (source : Option (Delivery × Snapshot))
    (answer : Appended) : Result :=
  match source with
  | none => .appended r answer
  | some (delivery, previous) =>
    match throwing (packetOf host r.bundle previous.metadata.ruleset
      delivery.request.generatedAt) with
    | .ok packet => .delivered delivery r.actionId (.appended answer packet)
    | .error reason => .rejected reason

/-- The names of the revision files of a directory, `store.mjs:167`. -/
def isRevisionName (name : JsString) : Bool :=
  (name.take 6).length = 6 && (name.take 6).all isDigit && name.drop 6 = js ".bundle.json"

def revisionNames (files : ActionFiles) : List JsString :=
  sortNames ((files.revisions.map Prod.fst).filter isRevisionName)

/-- The entry of a revision file, `store.mjs:171–176`. -/
def revisionEntry (name : JsString) (bundle : Json) : RevisionEntry :=
  let own (member : String) := get (get (some bundle) (js "payload")) (js member)
  { revision := digitsValue (name.take 6)
    bundleId := own "bundle_id"
    createdAt := own "created_at"
    predecessorBundleDigests := own "predecessor_bundle_digests" }

/-- A file that is missing where no one handles it. -/
def fileMissing : Rejection := .other (.typeError (js "ENOENT"))

/-! ### Steps of a call -/

/-- The files and the locks after a step, with what the call does next. -/
structure Stepped where
  store : Store
  locks : Locks JsString
  phase : Phase

/-- The end of a call. -/
def settle (store : Store) (locks : Locks JsString) (phase : Phase) (result : Result) : Stepped :=
  ⟨store, locks.releaseAll phase.tickets, .settled result⟩

/-- The callback of a lock up to its first file access, which is part of it. -/
def enter (host : Host) (store : Store) (locks : Locks JsString) (job : Job) (ticket : Nat) :
    Stepped :=
  let refuse (reason : Rejection) := settle store locks (.waiting job ticket) (.rejected reason)
  match job with
  | .store (.create a generatedAt) =>
    match paths host (.actionId a.actionId) with
    | .error reason => refuse reason
    | .ok key =>
      if (store.actions key).metadata.isSome then refuse (actionAlreadyExists a.actionId)
      else ⟨store, locks, .writing (.create a generatedAt) ticket key a.metadata .bundle⟩
  | .store (.append r source) =>
    match paths host (.actionId r.actionId) with
    | .error reason => refuse reason
    | .ok key =>
      ⟨store, locks, .reading (.append r source ticket) (.actionId r.actionId) key .start⟩
  | .link refundId actionId creating =>
    if linkedElsewhere store.stripeIndex refundId actionId then
      refuse (refundLinkedElsewhere refundId)
    else ⟨store, locks, .linking refundId actionId creating ticket store.stripeIndex⟩

/-- What follows when `getAction` has read its three files. -/
def found (host : Host) (relay : RelayService) (store : Store) (locks : Locks JsString)
    (reader : Reader) (actionId : IndexValue) (key : JsString) (snapshot : Snapshot) : Stepped :=
  match reader with
  | .get => ⟨store, locks, .settled (.snapshot actionId.text snapshot)⟩
  | .list => ⟨store, locks, .listing actionId.text key⟩
  | .webhook delivery =>
    if delivery.received.isDuplicate snapshot.metadata then
      ⟨store, locks, .settled (.delivered delivery actionId.text (.duplicate snapshot))⟩
    else
      match prepareRevision host relay delivery.request delivery.received actionId.text
        snapshot with
      | .ok r => ⟨store, locks, .queueing (.store (.append r (some (delivery, snapshot))))⟩
      | .error reason => ⟨store, locks, .settled (.rejected reason)⟩
  | .append r source ticket =>
    if r.isDuplicate snapshot.metadata then
      ⟨store, locks.release ticket, .settled (appendResult host r source (.duplicate snapshot))⟩
    else
      ⟨store, locks,
        .writing (.append r source) ticket key (r.metadata snapshot.metadata) .bundle⟩

/-- A file of `getAction`. -/
def read (host : Host) (relay : RelayService) (store : Store) (locks : Locks JsString)
    (reader : Reader) (actionId : IndexValue) (key : JsString) (progress : Progress) : Stepped :=
  let missing := settle store locks (.reading reader actionId key progress)
    (.rejected (actionNotFound actionId))
  match progress with
  | .start =>
    match (store.actions key).metadata with
    | some metadata => ⟨store, locks, .reading reader actionId key (.metadata metadata)⟩
    | none => missing
  | .metadata metadata =>
    match member (store.actions key).revisions (revisionFile metadata.revision) with
    | some bundle => ⟨store, locks, .reading reader actionId key (.bundle metadata bundle)⟩
    | none => missing
  | .bundle metadata bundle =>
    match (store.actions key).current with
    | some current => found host relay store locks reader actionId key { metadata, bundle, current }
    | none => missing

/-- What follows when the metadata of a revision is written. -/
def committed (host : Host) (store : Store) (locks : Locks JsString) (writer : Writer)
    (ticket : Nat) (metadata : Metadata) : Stepped :=
  match writer with
  | .create a generatedAt =>
    match a.stripeRefundId with
    | none => ⟨store, locks.release ticket, .settled (createResult host a generatedAt)⟩
    | some (.str refundId) =>
      if refundId = [] then ⟨store, locks.release ticket, .settled (.rejected refundIdInvalid)⟩
      else
        ⟨store, locks, .queueing (.link refundId a.actionId (some ⟨a, generatedAt, ticket⟩))⟩
    | some _ => ⟨store, locks.release ticket, .settled (.rejected refundIdInvalid)⟩
  | .append r source =>
    ⟨store, locks.release ticket, .settled (appendResult host r source
      (.revision { metadata, bundle := r.bundle, current := r.current }))⟩

/-- A file of a revision. -/
def write (host : Host) (store : Store) (locks : Locks JsString) (writer : Writer)
    (ticket : Nat) (key : JsString) (metadata : Metadata) : RevisionPart → Stepped
  | .bundle =>
    ⟨store.writeRevision key (revisionFile metadata.revision) writer.bundle, locks,
      .writing writer ticket key metadata .current⟩
  | .current =>
    ⟨store.writeCurrent key writer.current, locks, .writing writer ticket key metadata .metadata⟩
  | .metadata =>
    committed host (store.writeMetadata key metadata) locks writer ticket metadata

/-- The result of a call that has linked a refund. -/
def linkResult (host : Host) : Option Creating → Result
  | none => .linked
  | some creating => createResult host creating.action creating.generatedAt

/-- One step of a call; none when it waits for a lock or has ended. -/
def advance (host : Host) (relay : RelayService) (store : Store) (locks : Locks JsString) :
    Phase → Option Stepped
  | .queueing job =>
    some ⟨store, locks.enqueue job.lock, .waiting job locks.tickets.length⟩
  | .waiting job ticket =>
    if locks.canEnter ticket then some (enter host store locks job ticket) else none
  | .reading reader actionId key progress =>
    some (read host relay store locks reader actionId key progress)
  | .writing writer ticket key metadata next =>
    some (write host store locks writer ticket key metadata next)
  | .linking refundId actionId creating ticket index =>
    some (settle { store with stripeIndex := setIndex index refundId actionId } locks
      (.linking refundId actionId creating ticket index) (linkResult host creating))
  | .finding delivery =>
    let refundId := delivery.received.refundId
    match linkedAction refundId (indexValue store.stripeIndex refundId) with
    | .error reason => some ⟨store, locks, .settled (.rejected reason)⟩
    | .ok actionId =>
      match paths host actionId with
      | .ok key => some ⟨store, locks, .reading (.webhook delivery) actionId key .start⟩
      | .error reason => some ⟨store, locks, .settled (.rejected reason)⟩
  | .listing actionId key =>
    some ⟨store, locks, .listingFiles actionId key (revisionNames (store.actions key)) []⟩
  | .listingFiles actionId key names entries =>
    match names with
    | [] => some ⟨store, locks, .settled (.listing actionId entries)⟩
    | name :: rest =>
      match member (store.actions key).revisions name with
      | some bundle =>
        some ⟨store, locks,
          .listingFiles actionId key rest (entries ++ [revisionEntry name bundle])⟩
      | none => some ⟨store, locks, .settled (.rejected fileMissing)⟩
  | .settled _ => none
  | .crashed => none

/-- What a step of a call can do. -/
inductive Advances (host : Host) (relay : RelayService) (store : Store) (locks : Locks JsString) :
    Phase → Stepped → Prop where
  | enqueue {job : Job} : Advances host relay store locks (.queueing job)
      ⟨store, locks.enqueue job.lock, .waiting job locks.tickets.length⟩
  | refuse {job : Job} {ticket : Nat} {reason : Rejection} (henter : locks.canEnter ticket = true) :
      Advances host relay store locks (.waiting job ticket)
        (settle store locks (.waiting job ticket) (.rejected reason))
  | enterCreate {a : NewAction} {generatedAt : Option JsString} {ticket : Nat} {key : JsString}
      (henter : locks.canEnter ticket = true) (hkey : paths host (.actionId a.actionId) = .ok key)
      (hnew : (store.actions key).metadata = none) :
      Advances host relay store locks (.waiting (.store (.create a generatedAt)) ticket)
        ⟨store, locks, .writing (.create a generatedAt) ticket key a.metadata .bundle⟩
  | enterAppend {r : NewRevision} {source : Option (Delivery × Snapshot)} {ticket : Nat}
      {key : JsString} (henter : locks.canEnter ticket = true)
      (hkey : paths host (.actionId r.actionId) = .ok key) :
      Advances host relay store locks (.waiting (.store (.append r source)) ticket)
        ⟨store, locks, .reading (.append r source ticket) (.actionId r.actionId) key .start⟩
  | enterLink {refundId actionId : JsString} {creating : Option Creating} {ticket : Nat}
      (henter : locks.canEnter ticket = true)
      (hfree : linkedElsewhere store.stripeIndex refundId actionId = false) :
      Advances host relay store locks (.waiting (.link refundId actionId creating) ticket)
        ⟨store, locks, .linking refundId actionId creating ticket store.stripeIndex⟩
  | readMissing {reader : Reader} {actionId : IndexValue} {key : JsString} {progress : Progress} :
      Advances host relay store locks (.reading reader actionId key progress)
        (settle store locks (.reading reader actionId key progress)
          (.rejected (actionNotFound actionId)))
  | readMetadata {reader : Reader} {actionId : IndexValue} {key : JsString} {metadata : Metadata}
      (hmetadata : (store.actions key).metadata = some metadata) :
      Advances host relay store locks (.reading reader actionId key .start)
        ⟨store, locks, .reading reader actionId key (.metadata metadata)⟩
  | readBundle {reader : Reader} {actionId : IndexValue} {key : JsString} {metadata : Metadata}
      {bundle : Json} (hbundle : member (store.actions key).revisions
        (revisionFile metadata.revision) = some bundle) :
      Advances host relay store locks (.reading reader actionId key (.metadata metadata))
        ⟨store, locks, .reading reader actionId key (.bundle metadata bundle)⟩
  | readGet {actionId : IndexValue} {key : JsString} {metadata : Metadata} {bundle : Json}
      {current : CurrentSummary} (hcurrent : (store.actions key).current = some current) :
      Advances host relay store locks (.reading .get actionId key (.bundle metadata bundle))
        ⟨store, locks, .settled (.snapshot actionId.text { metadata, bundle, current })⟩
  | readList {actionId : IndexValue} {key : JsString} {metadata : Metadata} {bundle : Json}
      {current : CurrentSummary} (hcurrent : (store.actions key).current = some current) :
      Advances host relay store locks (.reading .list actionId key (.bundle metadata bundle))
        ⟨store, locks, .listing actionId.text key⟩
  | readDuplicate {delivery : Delivery} {actionId : IndexValue} {key : JsString}
      {metadata : Metadata} {bundle : Json} {current : CurrentSummary}
      (hcurrent : (store.actions key).current = some current)
      (hduplicate : delivery.received.isDuplicate metadata = true) :
      Advances host relay store locks
        (.reading (.webhook delivery) actionId key (.bundle metadata bundle))
        ⟨store, locks, .settled (.delivered delivery actionId.text
          (.duplicate { metadata, bundle, current }))⟩
  | readUnprepared {delivery : Delivery} {actionId : IndexValue} {key : JsString}
      {progress : Progress} {reason : Rejection} :
      Advances host relay store locks (.reading (.webhook delivery) actionId key progress)
        ⟨store, locks, .settled (.rejected reason)⟩
  | readPrepared {delivery : Delivery} {actionId : IndexValue} {key : JsString}
      {metadata : Metadata} {bundle : Json} {current : CurrentSummary} {r : NewRevision}
      (hcurrent : (store.actions key).current = some current)
      (hnew : delivery.received.isDuplicate metadata = false)
      (hprepared : prepareRevision host relay delivery.request delivery.received actionId.text
        { metadata, bundle, current } = .ok r) :
      Advances host relay store locks
        (.reading (.webhook delivery) actionId key (.bundle metadata bundle))
        ⟨store, locks,
          .queueing (.store (.append r (some (delivery, { metadata, bundle, current }))))⟩
  | readAppended {r : NewRevision} {source : Option (Delivery × Snapshot)} {ticket : Nat}
      {actionId : IndexValue} {key : JsString} {metadata : Metadata} {bundle : Json}
      {current : CurrentSummary} (hcurrent : (store.actions key).current = some current)
      (hduplicate : r.isDuplicate metadata = true) :
      Advances host relay store locks
        (.reading (.append r source ticket) actionId key (.bundle metadata bundle))
        ⟨store, locks.release ticket,
          .settled (appendResult host r source (.duplicate { metadata, bundle, current }))⟩
  | readFresh {r : NewRevision} {source : Option (Delivery × Snapshot)} {ticket : Nat}
      {actionId : IndexValue} {key : JsString} {metadata : Metadata} {bundle : Json}
      {current : CurrentSummary} (hcurrent : (store.actions key).current = some current)
      (hnew : r.isDuplicate metadata = false) :
      Advances host relay store locks
        (.reading (.append r source ticket) actionId key (.bundle metadata bundle))
        ⟨store, locks, .writing (.append r source) ticket key (r.metadata metadata) .bundle⟩
  | writeBundle {writer : Writer} {ticket : Nat} {key : JsString} {metadata : Metadata} :
      Advances host relay store locks (.writing writer ticket key metadata .bundle)
        ⟨store.writeRevision key (revisionFile metadata.revision) writer.bundle, locks,
          .writing writer ticket key metadata .current⟩
  | writeCurrent {writer : Writer} {ticket : Nat} {key : JsString} {metadata : Metadata} :
      Advances host relay store locks (.writing writer ticket key metadata .current)
        ⟨store.writeCurrent key writer.current, locks,
          .writing writer ticket key metadata .metadata⟩
  | commitCreate {a : NewAction} {generatedAt : Option JsString} {ticket : Nat} {key : JsString}
      {metadata : Metadata} {result : Result}
      (hresult : (a.stripeRefundId = none ∧ result = createResult host a generatedAt) ∨
        ((∀ refundId, a.stripeRefundId = some (.str refundId) → refundId = []) ∧
          result = .rejected refundIdInvalid)) :
      Advances host relay store locks
        (.writing (.create a generatedAt) ticket key metadata .metadata)
        ⟨store.writeMetadata key metadata, locks.release ticket, .settled result⟩
  | commitLink {a : NewAction} {generatedAt : Option JsString} {ticket : Nat}
      {key refundId : JsString} {metadata : Metadata}
      (hrefund : a.stripeRefundId = some (.str refundId)) (hne : refundId ≠ []) :
      Advances host relay store locks
        (.writing (.create a generatedAt) ticket key metadata .metadata)
        ⟨store.writeMetadata key metadata, locks,
          .queueing (.link refundId a.actionId (some ⟨a, generatedAt, ticket⟩))⟩
  | commitAppend {r : NewRevision} {source : Option (Delivery × Snapshot)} {ticket : Nat}
      {key : JsString} {metadata : Metadata} :
      Advances host relay store locks (.writing (.append r source) ticket key metadata .metadata)
        ⟨store.writeMetadata key metadata, locks.release ticket,
          .settled (appendResult host r source
            (.revision { metadata, bundle := r.bundle, current := r.current }))⟩
  | writeLink {refundId actionId : JsString} {creating : Option Creating} {ticket : Nat}
      {index : List (JsString × JsString)} :
      Advances host relay store locks (.linking refundId actionId creating ticket index)
        (settle { store with stripeIndex := setIndex index refundId actionId } locks
          (.linking refundId actionId creating ticket index) (linkResult host creating))
  | unlinked {delivery : Delivery} {reason : Rejection} :
      Advances host relay store locks (.finding delivery)
        ⟨store, locks, .settled (.rejected reason)⟩
  | findAction {delivery : Delivery} {actionId : IndexValue} {key : JsString}
      (hlinked : linkedAction delivery.received.refundId
        (indexValue store.stripeIndex delivery.received.refundId) = .ok actionId)
      (hkey : paths host actionId = .ok key) :
      Advances host relay store locks (.finding delivery)
        ⟨store, locks, .reading (.webhook delivery) actionId key .start⟩
  | listNames {actionId key : JsString} : Advances host relay store locks (.listing actionId key)
      ⟨store, locks, .listingFiles actionId key (revisionNames (store.actions key)) []⟩
  | listFile {actionId key name : JsString} {names : List JsString} {entries : List RevisionEntry}
      {bundle : Json} (hbundle : member (store.actions key).revisions name = some bundle) :
      Advances host relay store locks (.listingFiles actionId key (name :: names) entries)
        ⟨store, locks,
          .listingFiles actionId key names (entries ++ [revisionEntry name bundle])⟩
  | listMissing {actionId key name : JsString} {names : List JsString}
      {entries : List RevisionEntry} :
      Advances host relay store locks (.listingFiles actionId key (name :: names) entries)
        ⟨store, locks, .settled (.rejected fileMissing)⟩
  | listed {actionId key : JsString} {entries : List RevisionEntry} :
      Advances host relay store locks (.listingFiles actionId key [] entries)
        ⟨store, locks, .settled (.listing actionId entries)⟩

section

variable {host : Host} {relay : RelayService} {store : Store} {locks : Locks JsString}

private theorem advances_enter {job : Job} {ticket : Nat} (henter : locks.canEnter ticket = true) :
    Advances host relay store locks (.waiting job ticket) (enter host store locks job ticket) := by
  unfold enter
  dsimp only
  split
  · split
    · exact .refuse henter
    · next key hkey =>
      split
      · exact .refuse henter
      · next hnew => exact .enterCreate henter hkey (Option.not_isSome_iff_eq_none.mp hnew)
  · split
    · exact .refuse henter
    · next key hkey => exact .enterAppend henter hkey
  · split
    · exact .refuse henter
    · next hfree => exact .enterLink henter (Bool.eq_false_iff.mpr hfree)

private theorem advances_found {reader : Reader} {actionId : IndexValue} {key : JsString}
    {metadata : Metadata} {bundle : Json} {current : CurrentSummary}
    (hcurrent : (store.actions key).current = some current) :
    Advances host relay store locks (.reading reader actionId key (.bundle metadata bundle))
      (found host relay store locks reader actionId key { metadata, bundle, current }) := by
  cases reader with
  | get => exact .readGet hcurrent
  | list => exact .readList hcurrent
  | webhook delivery =>
    rw [found]
    split
    · next hduplicate => exact .readDuplicate hcurrent hduplicate
    · next hnew =>
      split
      · next r hprepared =>
        exact .readPrepared hcurrent (Bool.eq_false_iff.mpr hnew) hprepared
      · exact .readUnprepared
  | append r source ticket =>
    rw [found]
    split
    · next hduplicate => exact .readAppended hcurrent hduplicate
    · next hnew => exact .readFresh hcurrent (Bool.eq_false_iff.mpr hnew)

private theorem advances_read {reader : Reader} {actionId : IndexValue} {key : JsString}
    {progress : Progress} :
    Advances host relay store locks (.reading reader actionId key progress)
      (read host relay store locks reader actionId key progress) := by
  cases progress with
  | start =>
    rw [read]
    split
    · next metadata hmetadata => exact .readMetadata hmetadata
    · exact .readMissing
  | metadata metadata =>
    rw [read]
    split
    · next bundle hbundle => exact .readBundle hbundle
    · exact .readMissing
  | bundle metadata bundle =>
    rw [read]
    split
    · next current hcurrent => exact advances_found hcurrent
    · exact .readMissing

private theorem advances_write {writer : Writer} {ticket : Nat} {key : JsString}
    {metadata : Metadata} {next : RevisionPart} :
    Advances host relay store locks (.writing writer ticket key metadata next)
      (write host store locks writer ticket key metadata next) := by
  cases next with
  | bundle => exact .writeBundle
  | current => exact .writeCurrent
  | metadata =>
    cases writer with
    | create a generatedAt =>
      rw [write, committed]
      split
      · next hnone => exact .commitCreate (.inl ⟨hnone, rfl⟩)
      · next refundId hrefund =>
        split
        · next hempty =>
          refine .commitCreate (.inr ⟨?_, rfl⟩)
          intro other hother
          rw [hrefund] at hother
          cases hother
          exact hempty
        · next hne => exact .commitLink hrefund hne
      · next v hno hrefund =>
        refine .commitCreate (.inr ⟨?_, rfl⟩)
        intro refundId hstr
        rw [hrefund] at hstr
        cases hstr
        exact absurd rfl (hno refundId)
    | append r source => exact .commitAppend

/-- The steps of a call are those of the relation. -/
theorem advances_of_advance {phase : Phase} {stepped : Stepped}
    (h : advance host relay store locks phase = some stepped) :
    Advances host relay store locks phase stepped := by
  cases phase with
  | queueing job =>
    cases h
    exact .enqueue
  | waiting job ticket =>
    rw [advance] at h
    split at h
    · next henter =>
      cases h
      exact advances_enter henter
    · cases h
  | reading reader actionId key progress =>
    cases h
    exact advances_read
  | writing writer ticket key metadata next =>
    cases h
    exact advances_write
  | linking refundId actionId creating ticket index =>
    cases h
    exact .writeLink
  | finding delivery =>
    rw [advance] at h
    split at h
    · cases h
      exact .unlinked
    · next actionId hlinked =>
      split at h
      · next key hkey =>
        cases h
        exact .findAction hlinked hkey
      · cases h
        exact .unlinked
  | listing actionId key =>
    cases h
    exact .listNames
  | listingFiles actionId key names entries =>
    cases names with
    | nil =>
      cases h
      exact .listed
    | cons name rest =>
      rw [advance] at h
      split at h
      · next bundle hbundle =>
        cases h
        exact .listFile hbundle
      · cases h
        exact .listMissing
  | settled result => cases h
  | crashed => cases h

end

/-- What a call is when it starts. -/
inductive Begins (host : Host) (relay : RelayService) : CallRequest → Phase → Prop where
  | rejected {request : CallRequest} {reason : Rejection} :
      Begins host relay request (.settled (.rejected reason))
  | recordAction {request : ActionRequest} {a : NewAction}
      (hprepared : prepareAction host relay request = .ok a) :
      Begins host relay (.recordAction request)
        (.queueing (.store (.create a (some request.generatedAt))))
  | ingestStripeWebhook {request : WebhookRequest} {received : ReceivedWebhook}
      (hreceived : receiveWebhook host relay request = .ok received) :
      Begins host relay (.ingestStripeWebhook request) (.finding ⟨request, received⟩)
  | getAction {actionId key : JsString} (hkey : paths host (.actionId actionId) = .ok key) :
      Begins host relay (.getAction actionId) (.reading .get (.actionId actionId) key .start)
  | listRevisions {actionId key : JsString} (hkey : paths host (.actionId actionId) = .ok key) :
      Begins host relay (.listRevisions actionId) (.reading .list (.actionId actionId) key .start)
  | createAction {a : NewAction} :
      Begins host relay (.createAction a) (.queueing (.store (.create a none)))
  | appendRevision {r : NewRevision} :
      Begins host relay (.appendRevision r) (.queueing (.store (.append r none)))
  | registerStripeRefund {refundId actionId : JsString} :
      Begins host relay (.registerStripeRefund (.str refundId) actionId)
        (.queueing (.link refundId actionId none))

theorem begins (host : Host) (relay : RelayService) (request : CallRequest) :
    Begins host relay request (begin host relay request) := by
  cases request with
  | recordAction request =>
    rw [begin]
    split
    · next a ha => exact .recordAction ha
    · exact .rejected
  | ingestStripeWebhook request =>
    rw [begin]
    split
    · next received hreceived => exact .ingestStripeWebhook hreceived
    · exact .rejected
  | getAction actionId =>
    rw [begin]
    split
    · next key hkey => exact .getAction hkey
    · exact .rejected
  | listRevisions actionId =>
    rw [begin]
    split
    · next key hkey => exact .listRevisions hkey
    · exact .rejected
  | createAction a => exact .createAction
  | appendRevision r => exact .appendRevision
  | registerStripeRefund refundId actionId =>
    unfold begin
    cases refundId with
    | str refundId =>
      dsimp only
      split
      · exact .rejected
      · exact .registerStripeRefund
    | _ => exact .rejected

/-- A call that has stored an action reports it, or why its packet is missing. -/
theorem createResult_cases (host : Host) (a : NewAction) (generatedAt : Option JsString) :
    (∃ stored, createResult host a generatedAt = .created stored) ∨
      (∃ response, createResult host a generatedAt = .recorded response) ∨
      ∃ reason, createResult host a generatedAt = .rejected reason := by
  unfold createResult
  dsimp only
  split
  · exact .inl ⟨_, rfl⟩
  · split
    · exact .inr (.inl ⟨_, rfl⟩)
    · exact .inr (.inr ⟨_, rfl⟩)

/-- A call that has appended a revision reports it to the store's caller or as the answer of its
webhook. -/
theorem appendResult_cases (host : Host) (r : NewRevision) (source : Option (Delivery × Snapshot))
    (answer : Appended) :
    (source = none ∧ appendResult host r source answer = .appended r answer) ∨
      (∃ delivery previous packet, source = some (delivery, previous) ∧
        appendResult host r source answer =
          .delivered delivery r.actionId (.appended answer packet)) ∨
      ∃ reason, appendResult host r source answer = .rejected reason := by
  unfold appendResult
  split
  · exact .inl ⟨rfl, rfl⟩
  · split
    · exact .inr (.inl ⟨_, _, _, rfl, rfl⟩)
    · exact .inr (.inr ⟨_, rfl⟩)

/-- The result of a call that has written the metadata of an action. -/
theorem linkResult_cases (host : Host) (creating : Option Creating) :
    linkResult host creating = .linked ∨
      (∃ stored, linkResult host creating = .created stored) ∨
      (∃ response, linkResult host creating = .recorded response) ∨
      ∃ reason, linkResult host creating = .rejected reason := by
  cases creating with
  | none => exact .inl rfl
  | some creating => exact .inr (createResult_cases host _ _)

/-! ### The process -/

/-- The files, the locks and the calls of a process, in the order of their starts. -/
structure Process where
  store : Store
  locks : Locks JsString
  calls : List Phase

/-- What may happen to a process. -/
inductive Event where
  | start (request : CallRequest)
  | advance (call : Nat)
  | crash

/-- A call after a crash. -/
def Phase.crash : Phase → Phase
  | .settled result => .settled result
  | _ => .crashed

/-- One event; none when the call cannot go on. -/
def Process.step (host : Host) (relay : RelayService) (p : Process) : Event → Option Process
  | .start request => some { p with calls := p.calls ++ [begin host relay request] }
  | .advance call =>
    match p.calls[call]? with
    | none => none
    | some phase =>
      (advance host relay p.store p.locks phase).map fun stepped ↦
        { store := stepped.store, locks := stepped.locks
          calls := p.calls.set call stepped.phase }
  | .crash => some { store := p.store, locks := .none, calls := p.calls.map Phase.crash }

/-- A process that has just started on the given files. -/
def Process.fresh (store : Store) : Process := ⟨store, .none, []⟩

end TimeProofs.Relay
