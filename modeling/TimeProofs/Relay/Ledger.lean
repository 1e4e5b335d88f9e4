import TimeProofs.Relay.Process

/-!
# A relay without files

What a relay is for: the histories of the actions, each a list of revisions that only grows, and
the refunds that are linked to them. A call asks the ledger for one thing at a time and has its
answer at once; there are no files, no parts of a revision and no locks. The ledger leaves two
things open, which are given from outside: the summary that a call finds beside a revision, and
what a listing shows.
-/

namespace TimeProofs.Relay

open TimeProofs.Base TimeProofs.Json TimeProofs.Core TimeProofs.VerdictEngine
  TimeProofs.StripeConnector

/-- The history of an action: its metadata and the bundles of its revisions in their order. -/
structure History where
  metadata : Metadata
  bundles : List Json
  length_eq : bundles.length = metadata.revision
  ne_nil : bundles ≠ []

/-- The bundle of the latest revision. -/
def History.latest (history : History) : Json := history.bundles.getLast history.ne_nil

/-- The history of a new action. -/
def NewAction.history (a : NewAction) : History where
  metadata := a.metadata.stored
  bundles := [clone (.obj a.bundle)]
  length_eq := rfl
  ne_nil := List.cons_ne_nil _ _

/-- The history with one more revision. -/
def History.append (history : History) (r : NewRevision) : History where
  metadata := (r.metadata history.metadata).stored
  bundles := history.bundles ++ [clone (.obj r.bundle)]
  length_eq := by
    rw [List.length_append, history.length_eq]
    rfl
  ne_nil := List.append_ne_nil_of_right_ne_nil _ (List.cons_ne_nil _ _)

theorem History.getElem?_latest (history : History) :
    history.bundles[history.metadata.revision - 1]? = some history.latest := by
  rw [← history.length_eq, ← List.getLast?_eq_getElem?, List.getLast?_eq_some_getLast]
  rfl

/-- The histories of the actions by their directory names, and what the refund index says of a
refund. -/
structure Ledger where
  histories : JsString → Option History
  linked : JsString → Option IndexValue

/-- The ledger of a new relay. The index is an object, and says of a name that it inherits that
it is linked. -/
def Ledger.empty : Ledger := ⟨fun _ ↦ none, fun refundId ↦ indexValue [] refundId⟩

/-- The ledger with the history of an action. -/
def Ledger.record (ledger : Ledger) (key : JsString) (history : History) : Ledger :=
  { ledger with histories := fun k ↦ if k = key then some history else ledger.histories k }

@[simp] theorem histories_record_self (ledger : Ledger) (key : JsString) (history : History) :
    (ledger.record key history).histories key = some history := if_pos rfl

theorem histories_record_ne {ledger : Ledger} {key k : JsString} {history : History}
    (h : k ≠ key) : (ledger.record key history).histories k = ledger.histories k := if_neg h

/-- The ledger with the link of a refund. -/
def Ledger.link (ledger : Ledger) (refundId actionId : JsString) : Ledger :=
  { ledger with
    linked := fun id ↦ if refundId = id then some (.actionId actionId) else ledger.linked id }

/-- The refund belongs to another action. -/
def Ledger.linksElsewhere (ledger : Ledger) (refundId actionId : JsString) : Bool :=
  match ledger.linked refundId with
  | some (.actionId linked) => linked ≠ [] && linked ≠ actionId
  | some .inherited => true
  | none => false

/-! ### Calls -/

/-- A call that looks an action up. -/
inductive Looker where
  | get
  | list
  | webhook (delivery : Delivery)

/-- A call: what it asks the ledger for next. -/
inductive Task where
  | creating (a : NewAction) (generatedAt : Option JsString)
  | linking (refundId actionId : JsString) (created : Option (NewAction × Option JsString))
  | appending (r : NewRevision) (source : Option (Delivery × Snapshot))
  | finding (delivery : Delivery)
  | looking (looker : Looker) (actionId : IndexValue)
  | looked (looker : Looker) (actionId : IndexValue) (metadata : Metadata) (bundle : Json)
  | listing (actionId : JsString)
  | settled (result : Result)
  | crashed

/-- What the ledger leaves open. -/
structure Observed where
  current : CurrentSummary
  entries : List RevisionEntry

/-- How a call starts. -/
def Task.begin (host : Host) (relay : RelayService) : CallRequest → Task
  | .recordAction request =>
    match prepareAction host relay request with
    | .ok a => .creating a (some request.generatedAt)
    | .error reason => .settled (.rejected reason)
  | .ingestStripeWebhook request =>
    match receiveWebhook host relay request with
    | .ok received => .finding ⟨request, received⟩
    | .error reason => .settled (.rejected reason)
  | .getAction actionId =>
    match paths host (.actionId actionId) with
    | .ok _ => .looking .get (.actionId actionId)
    | .error reason => .settled (.rejected reason)
  | .listRevisions actionId =>
    match paths host (.actionId actionId) with
    | .ok _ => .looking .list (.actionId actionId)
    | .error reason => .settled (.rejected reason)
  | .createAction a => .creating a none
  | .appendRevision r => .appending r none
  | .registerStripeRefund (.str refundId) actionId =>
    if refundId = [] then .settled (.rejected refundIdInvalid)
    else .linking refundId actionId none
  | .registerStripeRefund _ _ => .settled (.rejected refundIdInvalid)

/-- What follows when an action has been created. -/
def Task.created (host : Host) (a : NewAction) (generatedAt : Option JsString) : Task :=
  match a.stripeRefundId with
  | none => .settled (createResult host a generatedAt)
  | some (.str refundId) =>
    if refundId = [] then .settled (.rejected refundIdInvalid)
    else .linking refundId a.actionId (some (a, generatedAt))
  | some _ => .settled (.rejected refundIdInvalid)

/-- The result of a call that has linked a refund. -/
def Task.linkedResult (host : Host) : Option (NewAction × Option JsString) → Result
  | none => .linked
  | some (a, generatedAt) => createResult host a generatedAt

/-- What follows when an action has been looked up. -/
def Looker.next (host : Host) (relay : RelayService) (actionId : IndexValue)
    (snapshot : Snapshot) : Looker → Task
  | .get => .settled (.snapshot actionId.text snapshot)
  | .list => .listing actionId.text
  | .webhook delivery =>
    if delivery.received.isDuplicate snapshot.metadata then
      .settled (.delivered delivery actionId.text (.duplicate snapshot))
    else
      match prepareRevision host relay delivery.request delivery.received actionId.text
        snapshot with
      | .ok r => .appending r (some (delivery, snapshot))
      | .error reason => .settled (.rejected reason)

/-- What the ledger answers, and what the call does next. -/
def Task.next (host : Host) (relay : RelayService) (ledger : Ledger) (observed : Observed) :
    Task → Option (Ledger × Task)
  | .creating a generatedAt =>
    match paths host (.actionId a.actionId) with
    | .error reason => some (ledger, .settled (.rejected reason))
    | .ok key =>
      match ledger.histories key with
      | some _ => some (ledger, .settled (.rejected (actionAlreadyExists a.actionId)))
      | none => some (ledger.record key a.history, .created host a generatedAt)
  | .linking refundId actionId created =>
    if ledger.linksElsewhere refundId actionId then
      some (ledger, .settled (.rejected (refundLinkedElsewhere refundId)))
    else some (ledger.link refundId actionId, .settled (linkedResult host created))
  | .appending r source =>
    match paths host (.actionId r.actionId) with
    | .error reason => some (ledger, .settled (.rejected reason))
    | .ok key =>
      match ledger.histories key with
      | none => some (ledger, .settled (.rejected (actionNotFound (.actionId r.actionId))))
      | some history =>
        if r.isDuplicate history.metadata then
          some (ledger, .settled (appendResult host r source (.duplicate
            { metadata := history.metadata, bundle := history.latest
              current := observed.current })))
        else
          some (ledger.record key (history.append r), .settled (appendResult host r source
            (.revision
              { metadata := r.metadata history.metadata, bundle := r.bundle
                current := r.current })))
  | .finding delivery =>
    let refundId := delivery.received.refundId
    match linkedAction refundId (ledger.linked refundId) with
    | .error reason => some (ledger, .settled (.rejected reason))
    | .ok actionId =>
      match paths host actionId with
      | .ok _ => some (ledger, .looking (.webhook delivery) actionId)
      | .error reason => some (ledger, .settled (.rejected reason))
  | .looking looker actionId =>
    match paths host actionId with
    | .error reason => some (ledger, .settled (.rejected reason))
    | .ok key =>
      match ledger.histories key with
      | none => some (ledger, .settled (.rejected (actionNotFound actionId)))
      | some history => some (ledger, .looked looker actionId history.metadata history.latest)
  | .looked looker actionId metadata bundle =>
    some (ledger,
      looker.next host relay actionId { metadata, bundle, current := observed.current })
  | .listing actionId => some (ledger, .settled (.listing actionId observed.entries))
  | .settled _ => none
  | .crashed => none

/-- What an answer of the ledger can be. -/
inductive Answers (host : Host) (relay : RelayService) (ledger : Ledger) :
    Task → Ledger → Task → Prop where
  | refuseCreate {a : NewAction} {generatedAt : Option JsString} {reason : Rejection}
      (h : ∀ key, paths host (.actionId a.actionId) = .ok key → ledger.histories key ≠ none) :
      Answers host relay ledger (.creating a generatedAt) ledger (.settled (.rejected reason))
  | create {a : NewAction} {generatedAt : Option JsString} {key : JsString}
      (hkey : paths host (.actionId a.actionId) = .ok key) (hnew : ledger.histories key = none) :
      Answers host relay ledger (.creating a generatedAt) (ledger.record key a.history)
        (.created host a generatedAt)
  | refuseLink {refundId actionId : JsString} {created : Option (NewAction × Option JsString)}
      {reason : Rejection} (h : ledger.linksElsewhere refundId actionId = true) :
      Answers host relay ledger (.linking refundId actionId created) ledger
        (.settled (.rejected reason))
  | link {refundId actionId : JsString} {created : Option (NewAction × Option JsString)}
      (hfree : ledger.linksElsewhere refundId actionId = false) :
      Answers host relay ledger (.linking refundId actionId created)
        (ledger.link refundId actionId) (.settled (Task.linkedResult host created))
  | refuseAppend {r : NewRevision} {source : Option (Delivery × Snapshot)} {reason : Rejection}
      (h : ∀ key, paths host (.actionId r.actionId) = .ok key → ledger.histories key = none) :
      Answers host relay ledger (.appending r source) ledger (.settled (.rejected reason))
  | duplicate {r : NewRevision} {source : Option (Delivery × Snapshot)} {key : JsString}
      {history : History} {current : CurrentSummary}
      (hkey : paths host (.actionId r.actionId) = .ok key)
      (hhistory : ledger.histories key = some history)
      (hduplicate : r.isDuplicate history.metadata = true) :
      Answers host relay ledger (.appending r source) ledger
        (.settled (appendResult host r source
          (.duplicate ⟨history.metadata, history.latest, current⟩)))
  | append {r : NewRevision} {source : Option (Delivery × Snapshot)} {key : JsString}
      {history : History} (hkey : paths host (.actionId r.actionId) = .ok key)
      (hhistory : ledger.histories key = some history)
      (hnew : r.isDuplicate history.metadata = false) :
      Answers host relay ledger (.appending r source) (ledger.record key (history.append r))
        (.settled (appendResult host r source
          (.revision ⟨r.metadata history.metadata, r.bundle, r.current⟩)))
  | unlinked {delivery : Delivery} {reason : Rejection} :
      Answers host relay ledger (.finding delivery) ledger (.settled (.rejected reason))
  | find {delivery : Delivery} {actionId : IndexValue} :
      Answers host relay ledger (.finding delivery) ledger (.looking (.webhook delivery) actionId)
  | missing {looker : Looker} {actionId : IndexValue} {reason : Rejection}
      (h : ∀ key, paths host actionId = .ok key → ledger.histories key = none) :
      Answers host relay ledger (.looking looker actionId) ledger (.settled (.rejected reason))
  | look {looker : Looker} {actionId : IndexValue} {key : JsString} {history : History}
      (hkey : paths host actionId = .ok key) (hhistory : ledger.histories key = some history) :
      Answers host relay ledger (.looking looker actionId) ledger
        (.looked looker actionId history.metadata history.latest)
  | looked {looker : Looker} {actionId : IndexValue} (snapshot : Snapshot) :
      Answers host relay ledger (.looked looker actionId snapshot.metadata snapshot.bundle) ledger
        (looker.next host relay actionId snapshot)
  | list {actionId : JsString} {entries : List RevisionEntry} :
      Answers host relay ledger (.listing actionId) ledger (.settled (.listing actionId entries))

/-- The answers of the ledger are those of the relation. -/
theorem answers_of_next {host : Host} {relay : RelayService} {ledger ledger' : Ledger}
    {observed : Observed} {task task' : Task}
    (h : task.next host relay ledger observed = some (ledger', task')) :
    Answers host relay ledger task ledger' task' := by
  cases task with
  | creating a generatedAt =>
    cases hkey : paths host (.actionId a.actionId) with
    | error reason =>
      simp only [Task.next, hkey] at h
      cases h
      exact .refuseCreate fun key hok ↦ nomatch hkey.symm.trans hok
    | ok key =>
      cases hhistory : ledger.histories key with
      | some history =>
        simp only [Task.next, hkey, hhistory] at h
        cases h
        apply Answers.refuseCreate
        rintro key' hok hnone
        obtain rfl : key = key' := Except.ok.inj (hkey.symm.trans hok)
        exact nomatch hhistory.symm.trans hnone
      | none =>
        simp only [Task.next, hkey, hhistory] at h
        cases h
        exact .create hkey hhistory
  | linking refundId actionId created =>
    rw [Task.next] at h
    split at h
    · next helsewhere =>
      cases h
      exact .refuseLink helsewhere
    · next hfree =>
      cases h
      exact .link (Bool.eq_false_iff.mpr hfree)
  | appending r source =>
    cases hkey : paths host (.actionId r.actionId) with
    | error reason =>
      simp only [Task.next, hkey] at h
      cases h
      exact .refuseAppend fun key hok ↦ nomatch hkey.symm.trans hok
    | ok key =>
      cases hhistory : ledger.histories key with
      | none =>
        simp only [Task.next, hkey, hhistory] at h
        cases h
        apply Answers.refuseAppend
        intro key' hok
        rwa [← Except.ok.inj (hkey.symm.trans hok)]
      | some history =>
        simp only [Task.next, hkey, hhistory] at h
        split at h
        · next hduplicate =>
          cases h
          exact .duplicate hkey hhistory hduplicate
        · next hnew =>
          cases h
          exact .append hkey hhistory (Bool.eq_false_iff.mpr hnew)
  | finding delivery =>
    rw [Task.next] at h
    split at h
    · cases h
      exact .unlinked
    · split at h
      · cases h
        exact .find
      · cases h
        exact .unlinked
  | looking looker actionId =>
    cases hkey : paths host actionId with
    | error reason =>
      simp only [Task.next, hkey] at h
      cases h
      exact .missing fun key hok ↦ nomatch hkey.symm.trans hok
    | ok key =>
      cases hhistory : ledger.histories key with
      | none =>
        simp only [Task.next, hkey, hhistory] at h
        cases h
        apply Answers.missing
        intro key' hok
        rwa [← Except.ok.inj (hkey.symm.trans hok)]
      | some history =>
        simp only [Task.next, hkey, hhistory] at h
        cases h
        exact .look hkey hhistory
  | looked looker actionId metadata bundle =>
    cases h
    exact .looked ⟨metadata, bundle, observed.current⟩
  | listing actionId =>
    cases h
    exact .list
  | settled result => cases h
  | crashed => cases h

/-- A ledger and the calls on it, in the order of their starts. -/
structure LedgerProcess where
  ledger : Ledger
  tasks : List Task

/-- What may happen to a ledger. -/
inductive LedgerEvent where
  | start (request : CallRequest)
  | advance (call : Nat) (observed : Observed)
  | crash

/-- The event of a relay process that an event of the ledger stands for. -/
def LedgerEvent.event : LedgerEvent → Event
  | .start request => .start request
  | .advance call _ => .advance call
  | .crash => .crash

/-- A call after a crash. -/
def Task.crash : Task → Task
  | .settled result => .settled result
  | _ => .crashed

/-- One event; none when the call has ended. -/
def LedgerProcess.step (host : Host) (relay : RelayService) (a : LedgerProcess) :
    LedgerEvent → Option LedgerProcess
  | .start request => some { a with tasks := a.tasks ++ [.begin host relay request] }
  | .advance call observed =>
    match a.tasks[call]? with
    | none => none
    | some task =>
      (task.next host relay a.ledger observed).map fun answer ↦
        { ledger := answer.1, tasks := a.tasks.set call answer.2 }
  | .crash => some { a with tasks := a.tasks.map Task.crash }

/-- A new relay. -/
def LedgerProcess.fresh : LedgerProcess := ⟨.empty, []⟩

end TimeProofs.Relay
