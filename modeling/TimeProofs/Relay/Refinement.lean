import TimeProofs.Base.Simulation
import TimeProofs.Relay.AppendOnly
import TimeProofs.Relay.Ledger
import TimeProofs.Relay.Links
import TimeProofs.Relay.Snapshots

/-!
# Files and locks keep a ledger

The calls of a relay read and write several files each and wait for each other's locks, and yet a
run looks like one in which every call asks a ledger for one thing at a time: an action is looked
up when its metadata is read, a revision is there when its metadata is written, and a refund is
linked when the index is. All other steps are none of the ledger.
-/

namespace TimeProofs.Relay

open TimeProofs.Base TimeProofs.Json TimeProofs.Core TimeProofs.VerdictEngine
  TimeProofs.StripeConnector

/-- The files of an action show its history. -/
def ActionFiles.Shows (files : ActionFiles) : Option History → Prop
  | none => files.metadata = none
  | some history => files.metadata = some history.metadata ∧
      ∀ (n : Nat) bundle, history.bundles[n]? = some bundle → revisionOf files (n + 1) = some bundle

/-- The files of a relay show a ledger. -/
structure Store.Shows (store : Store) (ledger : Ledger) : Prop where
  histories : ∀ key, (store.actions key).Shows (ledger.histories key)
  linked : ∀ refundId, ledger.linked refundId = indexValue store.stripeIndex refundId

/-- A revision file is there. -/
def ActionFiles.HasFile (files : ActionFiles) (name : JsString) : Prop :=
  ∃ bundle, member files.revisions name = some bundle

section

variable {files files' : ActionFiles} {history : Option History}

theorem ActionFiles.Shows.eq_none (h : files.Shows history) (hmetadata : files.metadata = none) :
    history = none := by
  cases history with
  | none => rfl
  | some history => exact nomatch hmetadata.symm.trans h.1

theorem ActionFiles.Shows.exists_history (h : files.Shows history) {metadata : Metadata}
    (hmetadata : files.metadata = some metadata) :
    ∃ history', history = some history' ∧ history'.metadata = metadata ∧
      revisionOf files metadata.revision = some history'.latest := by
  cases history with
  | none => exact nomatch hmetadata.symm.trans h
  | some history =>
    obtain ⟨hsame, hbundles⟩ := h
    obtain rfl : history.metadata = metadata := Option.some.inj (hsame.symm.trans hmetadata)
    refine ⟨history, rfl, rfl, ?_⟩
    have hpositive : 0 < history.bundles.length := List.length_pos_of_ne_nil history.ne_nil
    rw [← hbundles _ _ history.getElem?_latest]
    congr 1
    have hlength := history.length_eq
    omega

/-- Writing another part than the metadata shows nothing of itself. -/
theorem ActionFiles.Shows.grows (h : files.Shows history) (hgrows : Grows files files')
    (hmetadata : files'.metadata = files.metadata) : files'.Shows history := by
  cases history with
  | none => exact hmetadata.trans h
  | some history =>
    refine ⟨hmetadata.trans h.1, fun n bundle hbundle ↦ ?_⟩
    rw [hgrows.kept, h.2 n bundle hbundle]
    have hlt := (List.getElem?_eq_some_iff.mp hbundle).1
    have hcommitted : committedRevision files = history.metadata.revision := by
      rw [committedRevision, h.1]
      rfl
    rw [hcommitted, ← history.length_eq]
    exact hlt

/-- The metadata of a new action shows its history. -/
theorem ActionFiles.Shows.create {a : NewAction} {generatedAt : Option JsString}
    (hnext : RevisionPart.metadata.StillThere files (.create a generatedAt) a.metadata) :
    (files.afterWrite (.create a generatedAt) a.metadata .metadata).Shows (some a.history) := by
  refine ⟨rfl, fun n bundle hbundle ↦ ?_⟩
  obtain ⟨rfl, rfl⟩ : n = 0 ∧ clone (.obj a.bundle) = bundle := by
    cases n with
    | zero => exact ⟨rfl, Option.some.inj hbundle⟩
    | succ n => cases hbundle
  exact hnext.1

/-- The metadata of one more revision shows a history that has it. -/
theorem ActionFiles.Shows.append {history : History} (h : files.Shows (some history))
    {r : NewRevision} {source : Option (Delivery × Snapshot)} {existing : Metadata}
    (hexisting : files.metadata = some existing)
    (hnext : RevisionPart.metadata.StillThere files (.append r source) (r.metadata existing)) :
    (files.afterWrite (.append r source) (r.metadata existing) .metadata).Shows
      (some (history.append r)) := by
  obtain rfl : history.metadata = existing := Option.some.inj (h.1.symm.trans hexisting)
  refine ⟨rfl, fun n bundle hbundle ↦ ?_⟩
  have hcases : history.bundles[n]? = some bundle ∨
      n = history.bundles.length ∧ bundle = clone (.obj r.bundle) :=
    (getElem?_append_eq_some hbundle).symm
  rcases hcases with hold | ⟨rfl, rfl⟩
  · exact h.2 n bundle hold
  · rw [history.length_eq]
    exact hnext.1

theorem ActionFiles.HasFile.afterWrite {name : JsString} (h : files.HasFile name)
    (writer : Writer) (metadata : Metadata) (next : RevisionPart) :
    (files.afterWrite writer metadata next).HasFile name := by
  cases next with
  | bundle =>
    rw [HasFile, ActionFiles.afterWrite, member_setMember]
    split
    · exact ⟨_, rfl⟩
    · exact h
  | current => exact h
  | metadata => exact h

theorem hasFile_of_mem_revisionNames {name : JsString} (h : name ∈ revisionNames files) :
    files.HasFile name := by
  obtain ⟨hmem, -⟩ := mem_revisionNames.mp h
  unfold ActionFiles.HasFile
  generalize files.revisions = revisions at hmem ⊢
  induction revisions with
  | nil => cases hmem
  | cons entry rest ih =>
    obtain ⟨other, bundle⟩ := entry
    rw [member]
    split
    · exact ⟨bundle, rfl⟩
    · next hne =>
      rcases List.mem_cons.mp hmem with heq | hmem
      · exact absurd heq.symm hne
      · exact ih hmem

/-- Metadata that covers a revision is there, and so is a summary. -/
theorem Covers.exists_current {n : Nat} {bundle : Json} (h : Covers files n bundle)
    (hfiles : FilesOk files) : ∃ current, files.current = some current := by
  cases hmetadata : files.metadata with
  | none =>
    have hzero : committedRevision files = 0 := by
      rw [committedRevision, hmetadata]
      rfl
    have := h.positive
    have := h.committed
    omega
  | some metadata => exact hfiles.current metadata hmetadata

end

/-- The reader of an action that is looked up. -/
def Looker.reader : Looker → Reader
  | .get => .get
  | .list => .list
  | .webhook delivery => .webhook delivery

/-- The new action of a call that links its refund. -/
def Creating.created (creating : Creating) : NewAction × Option JsString :=
  (creating.action, creating.generatedAt)

/-- What a job does to the ledger. -/
inductive Job.Does : Job → Task → Prop where
  | create (a : NewAction) (generatedAt : Option JsString) :
      Job.Does (.store (.create a generatedAt)) (.creating a generatedAt)
  | append (r : NewRevision) (source : Option (Delivery × Snapshot)) :
      Job.Does (.store (.append r source)) (.appending r source)
  | link (refundId actionId : JsString) (creating : Option Creating) :
      Job.Does (.link refundId actionId creating)
        (.linking refundId actionId (creating.map Creating.created))

/-- What a call of a process asks the ledger for next. -/
inductive Phase.Does (host : Host) (store : Store) : Phase → Task → Prop where
  | queueing {job : Job} {task : Task} (h : job.Does task) :
      Phase.Does host store (.queueing job) task
  | waiting {job : Job} {ticket : Nat} {task : Task} (h : job.Does task) :
      Phase.Does host store (.waiting job ticket) task
  | appending {r : NewRevision} {source : Option (Delivery × Snapshot)} {ticket : Nat}
      {actionId : IndexValue} {key : JsString} {progress : Progress} :
      Phase.Does host store (.reading (.append r source ticket) actionId key progress)
        (.appending r source)
  | writing {writer : Writer} {ticket : Nat} {key : JsString} {metadata : Metadata}
      {next : RevisionPart} {task : Task} (h : (Job.store writer).Does task) :
      Phase.Does host store (.writing writer ticket key metadata next) task
  | linking {refundId actionId : JsString} {creating : Option Creating} {ticket : Nat}
      {index : List (JsString × JsString)} (hindex : index = store.stripeIndex)
      (hfree : linkedElsewhere index refundId actionId = false) :
      Phase.Does host store (.linking refundId actionId creating ticket index)
        (.linking refundId actionId (creating.map Creating.created))
  | finding {delivery : Delivery} : Phase.Does host store (.finding delivery) (.finding delivery)
  | looking (looker : Looker) {actionId : IndexValue} {key : JsString} :
      Phase.Does host store (.reading looker.reader actionId key .start) (.looking looker actionId)
  | lookedMetadata {looker : Looker} {actionId : IndexValue} {key : JsString} {metadata : Metadata}
      {bundle : Json} (hcovers : Covers (store.actions key) metadata.revision bundle) :
      Phase.Does host store (.reading looker.reader actionId key (.metadata metadata))
        (.looked looker actionId metadata bundle)
  | lookedBundle {looker : Looker} {actionId : IndexValue} {key : JsString} {metadata : Metadata}
      {bundle : Json} (hcovers : Covers (store.actions key) metadata.revision bundle) :
      Phase.Does host store (.reading looker.reader actionId key (.bundle metadata bundle))
        (.looked looker actionId metadata bundle)
  | listing {actionId key : JsString} :
      Phase.Does host store (.listing actionId key) (.listing actionId)
  | listingFiles {actionId key : JsString} {names : List JsString} {entries : List RevisionEntry}
      (hwrites : ∀ name ∈ names, (store.actions key).HasFile name) :
      Phase.Does host store (.listingFiles actionId key names entries) (.listing actionId)
  | settled {result : Result} : Phase.Does host store (.settled result) (.settled result)
  | crashed : Phase.Does host store .crashed .crashed

section

variable {host : Host} {relay : RelayService} {store store' : Store} {locks : Locks JsString}
  {ledger : Ledger} {phase : Phase} {task : Task}

theorem does_begin (host : Host) (relay : RelayService) (store : Store) (request : CallRequest) :
    (begin host relay request).Does host store (Task.begin host relay request) := by
  cases request with
  | recordAction request =>
    rw [begin, Task.begin]
    cases prepareAction host relay request with
    | ok a => exact .queueing (.create a _)
    | error reason => exact .settled
  | ingestStripeWebhook request =>
    rw [begin, Task.begin]
    cases receiveWebhook host relay request with
    | ok received => exact .finding
    | error reason => exact .settled
  | getAction actionId =>
    rw [begin, Task.begin]
    cases paths host (.actionId actionId) with
    | ok key => exact .looking .get
    | error reason => exact .settled
  | listRevisions actionId =>
    rw [begin, Task.begin]
    cases paths host (.actionId actionId) with
    | ok key => exact .looking .list
    | error reason => exact .settled
  | createAction a => exact .queueing (.create a none)
  | appendRevision r => exact .queueing (.append r none)
  | registerStripeRefund refundId actionId =>
    cases refundId with
    | str refundId =>
      rw [begin, Task.begin]
      split
      · exact .settled
      · exact .queueing (.link refundId actionId none)
    | _ => exact .settled

theorem Phase.Does.crash (h : phase.Does host store task) :
    phase.crash.Does host store' task.crash := by
  cases h with
  | queueing h => cases h <;> exact .crashed
  | waiting h => cases h <;> exact .crashed
  | writing h => cases h <;> exact .crashed
  | settled => exact .settled
  | _ => exact .crashed

/-- What a call asks for does not depend on what others write. -/
theorem Phase.Does.frame (h : phase.Does host store task)
    (hgrows : ∀ key, Grows (store.actions key) (store'.actions key))
    (hfiles : ∀ key name, (store.actions key).HasFile name → (store'.actions key).HasFile name)
    (hindex : ∀ refundId actionId creating ticket index,
      phase = .linking refundId actionId creating ticket index →
        store'.stripeIndex = store.stripeIndex) : phase.Does host store' task := by
  cases h with
  | queueing h => exact .queueing h
  | waiting h => exact .waiting h
  | appending => exact .appending
  | writing h => exact .writing h
  | linking heq hfree => exact .linking (heq.trans (hindex _ _ _ _ _ rfl).symm) hfree
  | finding => exact .finding
  | looking looker => exact .looking looker
  | lookedMetadata hcovers => exact .lookedMetadata (hcovers.grows (hgrows _))
  | lookedBundle hcovers => exact .lookedBundle (hcovers.grows (hgrows _))
  | listing => exact .listing
  | listingFiles hwrites => exact .listingFiles fun name hname ↦ hfiles _ _ (hwrites name hname)
  | settled => exact .settled
  | crashed => exact .crashed

/-- A call has ended exactly when it has ended for the ledger, with the same result. -/
theorem Phase.Does.settled_iff (h : phase.Does host store task) {result : Result} :
    phase = .settled result ↔ task = .settled result := by
  cases h with
  | queueing h => cases h <;> exact ⟨nofun, nofun⟩
  | waiting h => cases h <;> exact ⟨nofun, nofun⟩
  | writing h => cases h <;> exact ⟨nofun, nofun⟩
  | settled =>
    rw [Phase.settled.injEq, Task.settled.injEq]
  | _ => exact ⟨nofun, nofun⟩

theorem Ledger.linksElsewhere_eq (h : store.Shows ledger) (refundId actionId : JsString) :
    ledger.linksElsewhere refundId actionId =
      linkedElsewhere store.stripeIndex refundId actionId := by
  unfold Ledger.linksElsewhere linkedElsewhere
  exact h.linked refundId ▸ rfl

/-! ### Steps -/

/-- A step of a call is one of the ledger, or none of it. -/
inductive Mirrored (host : Host) (relay : RelayService) (ledger : Ledger) (task : Task)
    (stepped : Stepped) : Prop where
  | silent (hshows : stepped.store.Shows ledger)
      (hdoes : stepped.phase.Does host stepped.store task)
  | answer {observed : Observed} {ledger' : Ledger} {task' : Task}
      (hnext : task.next host relay ledger observed = some (ledger', task'))
      (hshows : stepped.store.Shows ledger')
      (hdoes : stepped.phase.Does host stepped.store task')

/-- A step that only reads or takes locks. -/
theorem Mirrored.read {next : Phase} (hshows : store.Shows ledger)
    (hdoes : next.Does host store task) :
    Mirrored host relay ledger task ⟨store, locks, next⟩ :=
  .silent hshows hdoes

/-- The end of a call, when the ledger gives the same result. -/
theorem Mirrored.settle (observed : Observed) {result : Result} (hshows : store.Shows ledger)
    (hnext : task.next host relay ledger observed = some (ledger, .settled result)) :
    Mirrored host relay ledger task ⟨store, locks, .settled result⟩ :=
  .answer hnext hshows .settled

/-- What a call that finds no summary observes. -/
def storeObserved : Observed := ⟨storeSummary, []⟩

/-- A call that enters its lock. -/
theorem mirrored_enter {job : Job} {ticket : Nat} (hshows : store.Shows ledger)
    (hdoes : job.Does task) :
    Mirrored host relay ledger task (enter host store locks job ticket) := by
  cases hdoes with
  | create a generatedAt =>
    cases hkey : paths host (.actionId a.actionId) with
    | error reason =>
      simp only [enter, hkey]
      apply Mirrored.settle storeObserved hshows
      simp only [Task.next, hkey]
    | ok key =>
      simp only [enter, hkey]
      cases hmetadata : (store.actions key).metadata with
      | none => exact .read hshows (.writing (.create a generatedAt))
      | some metadata =>
        obtain ⟨history, hhistory, -⟩ := (hshows.histories key).exists_history hmetadata
        apply Mirrored.settle storeObserved hshows
        simp only [Task.next, hkey, hhistory]
  | append r source =>
    cases hkey : paths host (.actionId r.actionId) with
    | error reason =>
      simp only [enter, hkey]
      apply Mirrored.settle storeObserved hshows
      simp only [Task.next, hkey]
    | ok key =>
      simp only [enter, hkey]
      exact .read hshows .appending
  | link refundId actionId creating =>
    rw [enter]
    dsimp only
    split
    · next helsewhere =>
      apply Mirrored.settle storeObserved hshows
      rw [Task.next, Ledger.linksElsewhere_eq hshows, if_pos helsewhere]
    · next hfree => exact .read hshows (.linking rfl (Bool.eq_false_iff.mpr hfree))

/-- A call that looks an action up and has read its files goes on. -/
theorem mirrored_found (looker : Looker) (actionId : IndexValue) (key : JsString)
    (snapshot : Snapshot) (hshows : store.Shows ledger) :
    Mirrored host relay ledger (.looked looker actionId snapshot.metadata snapshot.bundle)
      (found host relay store locks looker.reader actionId key snapshot) := by
  have hnext : (Task.looked looker actionId snapshot.metadata snapshot.bundle).next host relay
      ledger ⟨snapshot.current, []⟩ = some (ledger, looker.next host relay actionId snapshot) := rfl
  cases looker with
  | get => exact .answer hnext hshows .settled
  | list => exact .answer hnext hshows .listing
  | webhook delivery =>
    rw [Looker.next] at hnext
    rw [Looker.reader, found]
    split at hnext
    · next hduplicate =>
      rw [if_pos hduplicate]
      exact .answer hnext hshows .settled
    · next hnew =>
      rw [if_neg hnew]
      cases hprepared : prepareRevision host relay delivery.request delivery.received
          actionId.text snapshot with
      | ok r =>
        rw [hprepared] at hnext
        exact .answer hnext hshows (.queueing (.append r _))
      | error reason =>
        rw [hprepared] at hnext
        exact .answer hnext hshows .settled

/-- A call that reads an action appends a revision, or looks the action up. -/
theorem reader_cases {reader : Reader} {actionId : IndexValue} {key : JsString}
    {progress : Progress} (h : (Phase.reading reader actionId key progress).Does host store task) :
    (∃ r source ticket, reader = .append r source ticket ∧ task = .appending r source) ∨
      ∃ looker : Looker, reader = looker.reader := by
  cases h with
  | appending => exact .inl ⟨_, _, _, rfl, rfl⟩
  | looking looker => exact .inr ⟨looker, rfl⟩
  | lookedMetadata _ => exact .inr ⟨_, rfl⟩
  | lookedBundle _ => exact .inr ⟨_, rfl⟩

/-- A call that looks an action up reads one of its files. -/
theorem mirrored_read {looker : Looker} {actionId : IndexValue} {key : JsString}
    {progress : Progress} (hshows : store.Shows ledger) (hfiles : FilesOk (store.actions key))
    (hkey : paths host actionId = .ok key)
    (hdoes : (Phase.reading looker.reader actionId key progress).Does host store task) :
    Mirrored host relay ledger task
      (read host relay store locks looker.reader actionId key progress) := by
  generalize hreader : looker.reader = reader at hdoes ⊢
  cases hdoes with
  | appending => cases looker <;> cases hreader
  | looking looker =>
    cases hmetadata : (store.actions key).metadata with
    | none =>
      simp only [read, hmetadata]
      apply Mirrored.settle storeObserved hshows
      simp only [Task.next, hkey, (hshows.histories key).eq_none hmetadata]
    | some metadata =>
      obtain ⟨history, hhistory, rfl, hlatest⟩ :=
        (hshows.histories key).exists_history hmetadata
      have hcommitted : committedRevision (store.actions key) = history.metadata.revision := by
        rw [committedRevision, hmetadata]
        rfl
      have hnext : (Task.looking looker actionId).next host relay ledger storeObserved =
          some (ledger, .looked looker actionId history.metadata history.latest) := by
        simp only [Task.next, hkey, hhistory]
      simp only [read, hmetadata]
      exact .answer hnext hshows
        (.lookedMetadata ⟨hfiles.positive _ hmetadata, hcommitted.ge, hlatest⟩)
  | lookedMetadata hcovers =>
    have hcontent : member (store.actions key).revisions (revisionFile _) = some _ :=
      hcovers.content
    simp only [read, hcontent]
    exact .read hshows (.lookedBundle hcovers)
  | lookedBundle hcovers =>
    obtain ⟨current, hcurrent⟩ := hcovers.exists_current hfiles
    simp only [read, hcurrent]
    exact mirrored_found _ actionId key ⟨_, _, current⟩ hshows

/-- A call that appends a revision reads one of the files of its action. -/
theorem mirrored_readAppend {r : NewRevision} {source : Option (Delivery × Snapshot)}
    {ticket : Nat} {actionId : IndexValue} {key : JsString} {progress : Progress}
    (hshows : store.Shows ledger) (hfiles : FilesOk (store.actions key))
    (hcall : CallOk host store (.reading (.append r source ticket) actionId key progress)) :
    Mirrored host relay ledger (.appending r source)
      (read host relay store locks (.append r source ticket) actionId key progress) := by
  obtain ⟨rfl, hkey, hthere⟩ := hcall
  cases progress with
  | start =>
    cases hmetadata : (store.actions key).metadata with
    | none =>
      simp only [read, hmetadata]
      apply Mirrored.settle storeObserved hshows
      simp only [Task.next, hkey, (hshows.histories key).eq_none hmetadata]
    | some metadata =>
      simp only [read, hmetadata]
      exact .read hshows .appending
  | metadata metadata =>
    have hmetadata : (store.actions key).metadata = some metadata := hthere
    obtain ⟨history, -, -, hlatest⟩ := (hshows.histories key).exists_history hmetadata
    have hcontent : member (store.actions key).revisions (revisionFile metadata.revision) =
        some history.latest := hlatest
    simp only [read, hcontent]
    exact .read hshows .appending
  | bundle metadata bundle =>
    obtain ⟨hmetadata, hbundle⟩ := hthere
    obtain ⟨history, hhistory, rfl, hlatest⟩ := (hshows.histories key).exists_history hmetadata
    obtain rfl : bundle = history.latest := Option.some.inj (hbundle.symm.trans hlatest)
    obtain ⟨current, hcurrent⟩ := hfiles.current _ hmetadata
    simp only [read, hcurrent, found]
    split
    · next hduplicate =>
      apply Mirrored.settle ⟨current, []⟩ hshows
      simp only [Task.next, hkey, hhistory, hduplicate, if_true]
    · exact .read hshows (.writing (.append r source))

/-- What a call has written shows itself with the metadata only. -/
theorem Store.Shows.afterWrite (h : store.Shows ledger) {writer : Writer} {key : JsString}
    {metadata : Metadata} (hextends : writer.Extends (store.actions key) metadata)
    (next : RevisionPart) (hnext : next ≠ .metadata) :
    (store.update key fun files ↦ files.afterWrite writer metadata next).Shows ledger := by
  refine ⟨fun k ↦ ?_, h.linked⟩
  by_cases hk : k = key
  · subst hk
    rw [actions_update_self]
    apply (h.histories k).grows (grows_afterWrite hextends next)
    cases next with
    | metadata => exact absurd rfl hnext
    | _ => rfl
  · rw [actions_update_ne hk]
    exact h.histories k

/-- The metadata of an action shows what has become of its history. -/
theorem Store.Shows.record (h : store.Shows ledger) {writer : Writer} {key : JsString}
    {metadata : Metadata} {history : History}
    (hhistory : ((store.actions key).afterWrite writer metadata .metadata).Shows (some history)) :
    (store.writeMetadata key metadata).Shows (ledger.record key history) := by
  refine ⟨fun k ↦ ?_, h.linked⟩
  by_cases hk : k = key
  · subst hk
    rw [histories_record_self, Store.writeMetadata, actions_update_self]
    exact hhistory
  · rw [histories_record_ne hk, Store.writeMetadata, actions_update_ne hk]
    exact h.histories k

/-- The index shows a link that has been written to it. -/
theorem Store.Shows.link (h : store.Shows ledger) (refundId actionId : JsString) :
    Store.Shows { store with stripeIndex := setIndex store.stripeIndex refundId actionId }
      (ledger.link refundId actionId) := by
  refine ⟨h.histories, fun id ↦ ?_⟩
  show (if refundId = id then _ else ledger.linked id) = _
  rw [indexValue, lookup_setIndex, h.linked, indexValue]
  split <;> rfl

/-- A call writes a part of a revision. -/
theorem mirrored_write {writer : Writer} {ticket : Nat} {key : JsString} {metadata : Metadata}
    {next : RevisionPart} (hshows : store.Shows ledger)
    (hcall : CallOk host store (.writing writer ticket key metadata next))
    (hdoes : (Job.store writer).Does task) :
    Mirrored host relay ledger task
      (write host store locks writer ticket key metadata next) := by
  obtain ⟨hkey, hextends, hthere⟩ := hcall
  cases next with
  | bundle => exact .silent (hshows.afterWrite hextends .bundle nofun) (.writing hdoes)
  | current => exact .silent (hshows.afterWrite hextends .current nofun) (.writing hdoes)
  | metadata =>
    cases hdoes with
    | create a generatedAt =>
      obtain ⟨hnew, rfl⟩ := hextends
      have hshown := hshows.record (.create hthere)
      have hnext : (Task.creating a generatedAt).next host relay ledger storeObserved =
          some (ledger.record key a.history, Task.created host a generatedAt) := by
        have hpath : paths host (.actionId a.actionId) = .ok key := hkey
        simp only [Task.next, hpath, (hshows.histories key).eq_none hnew]
      unfold Task.created at hnext
      simp only [write, committed]
      cases hrefund : a.stripeRefundId with
      | none =>
        rw [hrefund] at hnext
        exact .answer hnext hshown .settled
      | some refundId =>
        rw [hrefund] at hnext
        cases refundId with
        | str refundId =>
          dsimp only at hnext ⊢
          split at hnext
          · next hempty =>
            rw [if_pos hempty]
            exact .answer hnext hshown .settled
          · next hne =>
            rw [if_neg hne]
            exact .answer hnext hshown (.queueing (.link refundId a.actionId (some ⟨a, _, ticket⟩)))
        | _ => exact .answer hnext hshown .settled
    | append r source =>
      obtain ⟨existing, hexisting, hfresh, rfl⟩ := hextends
      obtain ⟨history, hhistory, rfl, -⟩ := (hshows.histories key).exists_history hexisting
      have hshown : ((store.actions key).afterWrite (.append r source)
          (r.metadata history.metadata) .metadata).Shows (some (history.append r)) :=
        .append (hhistory ▸ hshows.histories key) hexisting hthere
      have hpath : paths host (.actionId r.actionId) = .ok key := hkey
      have hnext : (Task.appending r source).next host relay ledger storeObserved =
          some (ledger.record key (history.append r), .settled (appendResult host r source
            (.revision ⟨r.metadata history.metadata, r.bundle, r.current⟩))) := by
        simp only [Task.next, hpath, hhistory, hfresh, Bool.false_eq_true, if_false]
      exact .answer hnext (hshows.record hshown) .settled

/-- Every step of a call is one of the ledger, or none of it. -/
theorem mirrored_advance {stepped : Stepped} (hshows : store.Shows ledger)
    (hfiles : ∀ key, FilesOk (store.actions key)) (hcall : CallOk host store phase)
    (hdoes : phase.Does host store task)
    (hadvance : advance host relay store locks phase = some stepped) :
    Mirrored host relay ledger task stepped := by
  cases phase with
  | queueing job =>
    cases hadvance
    cases hdoes with
    | queueing h => exact .read hshows (.waiting h)
  | waiting job ticket =>
    rw [advance] at hadvance
    split at hadvance
    · cases hadvance
      cases hdoes with
      | waiting h => exact mirrored_enter hshows h
    · cases hadvance
  | reading reader actionId key progress =>
    cases hadvance
    rcases reader_cases hdoes with ⟨r, source, ticket, rfl, rfl⟩ | ⟨looker, rfl⟩
    · exact mirrored_readAppend hshows (hfiles key) hcall
    · have hkey : paths host actionId = .ok key := by cases looker <;> exact hcall
      exact mirrored_read hshows (hfiles key) hkey hdoes
  | writing writer ticket key metadata next =>
    cases hadvance
    cases hdoes with
    | writing h => exact mirrored_write hshows hcall h
  | linking refundId actionId creating ticket index =>
    cases hadvance
    cases hdoes with
    | linking hindex hfree =>
      subst hindex
      have hnext : (Task.linking refundId actionId (creating.map Creating.created)).next host relay
          ledger storeObserved =
            some (ledger.link refundId actionId, .settled (linkResult host creating)) := by
        rw [Task.next, Ledger.linksElsewhere_eq hshows, hfree]
        cases creating <;> rfl
      exact .answer hnext (hshows.link refundId actionId) .settled
  | finding delivery =>
    cases hdoes
    have hlinked := hshows.linked delivery.received.refundId
    cases haction : linkedAction delivery.received.refundId
        (indexValue store.stripeIndex delivery.received.refundId) with
    | error reason =>
      simp only [advance, haction, Option.some.injEq] at hadvance
      subst hadvance
      apply Mirrored.settle storeObserved hshows
      simp only [Task.next, hlinked, haction]
    | ok actionId =>
      cases hkey : paths host actionId with
      | error reason =>
        simp only [advance, haction, hkey, Option.some.injEq] at hadvance
        subst hadvance
        apply Mirrored.settle storeObserved hshows
        simp only [Task.next, hlinked, haction, hkey]
      | ok key =>
        simp only [advance, haction, hkey, Option.some.injEq] at hadvance
        subst hadvance
        have hnext : (Task.finding delivery).next host relay ledger storeObserved =
            some (ledger, .looking (.webhook delivery) actionId) := by
          simp only [Task.next, hlinked, haction, hkey]
        exact .answer hnext hshows (.looking (.webhook delivery))
  | listing actionId key =>
    cases hadvance
    cases hdoes
    exact .read hshows (.listingFiles fun name hname ↦ hasFile_of_mem_revisionNames hname)
  | listingFiles actionId key names entries =>
    cases hdoes with
    | listingFiles hwrites =>
      cases names with
      | nil =>
        cases hadvance
        exact .settle ⟨storeSummary, entries⟩ hshows rfl
      | cons name rest =>
        obtain ⟨bundle, hbundle⟩ := hwrites name List.mem_cons_self
        simp only [advance, hbundle] at hadvance
        cases hadvance
        exact .read hshows (.listingFiles fun other hother ↦
          hwrites other (List.mem_cons_of_mem name hother))
  | settled result => cases hadvance
  | crashed => cases hadvance

end

/-! ### Runs -/

/-- A process and a ledger with the same calls, the files of the one showing the other. -/
structure Mirrors (host : Host) (ids : Set JsString) (p : Process) (a : LedgerProcess) : Prop where
  orderly : Orderly host ids p
  shows : p.store.Shows a.ledger
  length_eq : a.tasks.length = p.calls.length
  calls : ∀ (i : Nat) phase, p.calls[i]? = some phase →
    ∃ task, a.tasks[i]? = some task ∧ phase.Does host p.store task

section

variable {host : Host} {relay : RelayService} {ids : Set JsString} {p q : Process}
  {a : LedgerProcess}

theorem mirrors_fresh : Mirrors host ids (.fresh .empty) .fresh where
  orderly := orderly_fresh
  shows := ⟨fun _ ↦ rfl, fun _ ↦ rfl⟩
  length_eq := rfl
  calls := fun i phase h ↦ by simp [Process.fresh] at h

/-- A step of a call leaves to the others what they rely on. -/
theorem Mirrors.frame (h : Mirrors host ids p a) {i j : Nat} {phase other : Phase} {task : Task}
    {stepped : Stepped} (hne : j ≠ i) (hi : p.calls[i]? = some phase)
    (hj : p.calls[j]? = some other)
    (hadvance : advance host relay p.store p.locks phase = some stepped)
    (hdoes : other.Does host p.store task) : other.Does host stepped.store task := by
  have hadvances := advances_of_advance hadvance
  have hstore := storeStep_of_advances hadvances
  apply hdoes.frame
  · exact fun key ↦ (h.orderly.files_advance hi hstore key).1
  · intro key name hname
    cases hstore with
    | same _ hactions => rwa [hactions]
    | @write writer ticket written metadata next _ hactions =>
      rw [hactions]
      by_cases hkey : key = written
      · subst hkey
        rw [actions_update_self]
        exact hname.afterWrite writer metadata next
      · rwa [actions_update_ne hkey]
  · rintro refundId actionId creating ticket index rfl
    cases hadvances with
    | writeLink =>
      exact absurd (h.orderly.locks.exclusive hj hi List.mem_cons_self List.mem_cons_self) hne
    | _ => rfl

/-- Every event of the process is one of the ledger, or none of it. -/
theorem mirrors_simulates (hkeys : Set.InjOn (actionKey host) ids) :
    Simulates (Process.step host relay) (LedgerProcess.step host relay) LedgerEvent.event
      (fun _ event ↦ event.Writes ids) (Mirrors host ids) := by
  intro p a event q h hwrites hstep
  have horderly := h.orderly.step hkeys hwrites (steps_of_step hstep)
  cases event with
  | start request =>
    cases hstep
    refine .inr ⟨.start request, _, rfl, rfl, horderly, h.shows, ?_, ?_⟩
    · simp [h.length_eq]
    · intro i phase hi
      rcases getElem?_append_eq_some hi with ⟨rfl, rfl⟩ | hi
      · refine ⟨.begin host relay request, ?_, does_begin host relay p.store request⟩
        rw [← h.length_eq]
        exact List.getElem?_concat_length
      · obtain ⟨task, htask, hdoes⟩ := h.calls i phase hi
        refine ⟨task, ?_, hdoes⟩
        rw [List.getElem?_append_left (List.getElem?_eq_some_iff.mp htask).1, htask]
  | crash =>
    cases hstep
    refine .inr ⟨.crash, _, rfl, rfl, horderly, h.shows, ?_, ?_⟩
    · simp [h.length_eq]
    · intro i phase hi
      rw [List.getElem?_map, Option.map_eq_some_iff] at hi
      obtain ⟨old, hold, rfl⟩ := hi
      obtain ⟨task, htask, hdoes⟩ := h.calls i old hold
      exact ⟨task.crash, by rw [List.getElem?_map, htask]; rfl, hdoes.crash⟩
  | advance i =>
    rw [Process.step] at hstep
    split at hstep
    · cases hstep
    · next phase hi =>
      obtain ⟨stepped, hadvance, rfl⟩ := Option.map_eq_some_iff.mp hstep
      obtain ⟨task, htask, hdoes⟩ := h.calls i phase hi
      -- The other calls do what they did before.
      have hothers (j : Nat) (other : Phase) (hne : j ≠ i) (hj : p.calls[j]? = some other) :
          ∃ task, a.tasks[j]? = some task ∧ other.Does host stepped.store task := by
        obtain ⟨task', htask', hdoes'⟩ := h.calls j other hj
        exact ⟨task', htask', h.frame hne hi hj hadvance hdoes'⟩
      cases mirrored_advance h.shows h.orderly.files (h.orderly.calls i phase hi) hdoes
        hadvance with
      | silent hshows hdoes' =>
        refine .inl ⟨horderly, hshows, by simp [h.length_eq], fun j other hj ↦ ?_⟩
        rcases getElem?_set_eq_some hj with ⟨rfl, rfl⟩ | ⟨hne, hj⟩
        · exact ⟨task, htask, hdoes'⟩
        · exact hothers j other hne hj
      | @answer observed ledger' task' hnext hshows hdoes' =>
        refine .inr ⟨.advance i observed, ⟨ledger', a.tasks.set i task'⟩, rfl, ?_, horderly, hshows,
          by simp [h.length_eq], fun j other hj ↦ ?_⟩
        · rw [LedgerProcess.step, htask]
          simp only [hnext, Option.map_some]
        · rcases getElem?_set_eq_some hj with ⟨rfl, rfl⟩ | ⟨hne, hj⟩
          · exact ⟨task', getElem?_set_self htask task', hdoes'⟩
          · obtain ⟨other', hother', hdoesOther⟩ := hothers j other hne hj
            exact ⟨other', by rw [List.getElem?_set_ne (Ne.symm hne), hother'], hdoesOther⟩

theorem Mirrors.settled_iff (h : Mirrors host ids p a) (i : Nat) (result : Result) :
    p.calls[i]? = some (.settled result) ↔ a.tasks[i]? = some (.settled result) := by
  constructor
  · intro hi
    obtain ⟨task, htask, hdoes⟩ := h.calls i _ hi
    rw [htask, hdoes.settled_iff.mp rfl]
  · intro hi
    have hlt : i < p.calls.length := h.length_eq ▸ (List.getElem?_eq_some_iff.mp hi).1
    obtain ⟨task, htask, hdoes⟩ := h.calls i _ (List.getElem?_eq_getElem hlt)
    obtain rfl : task = .settled result := Option.some.inj (htask.symm.trans hi)
    rw [List.getElem?_eq_getElem hlt, hdoes.settled_iff.mpr rfl]

/-- Every run of the relay, with its files, its locks and its crashes, is a run of the ledger on a
part of the same events: the files show the histories and the links that the ledger has, and the
calls that have ended have the same results. The ledger leaves open what a listing shows and which
summary is found beside a revision. -/
theorem process_refines_ledger (host : Host) (relay : RelayService) (ids : Set JsString)
    (hids : Set.InjOn utf8 ids) (hsha : Set.InjOn host.sha256 (utf8 '' ids))
    {events : List Event} {p : Process}
    (hwrites : ∀ event ∈ events, event.Writes ids)
    (hrun : runEvents (Process.step host relay) (.fresh .empty) events = some p) :
    ∃ (events' : List LedgerEvent) (a : LedgerProcess),
      (events'.map LedgerEvent.event).Sublist events ∧
      runEvents (LedgerProcess.step host relay) .fresh events' = some a ∧
      p.store.Shows a.ledger ∧ a.tasks.length = p.calls.length ∧
      ∀ (i : Nat) (result : Result),
        p.calls[i]? = some (.settled result) ↔ a.tasks[i]? = some (.settled result) := by
  have hkeys := injOn_actionKey hids hsha
  obtain ⟨events', a, hsublist, hrun', hmirrors⟩ := (mirrors_simulates hkeys).exists_run
    (fun event hevent _ ↦ hwrites event hevent) mirrors_fresh hrun
  exact ⟨events', a, hsublist, hrun', hmirrors.shows, hmirrors.length_eq, hmirrors.settled_iff⟩

end

/-- An action is created, two revisions are appended at once, and the action is read meanwhile. -/
def interleavedRun : List Event :=
  .start (.createAction storeAction) :: List.replicate 5 (.advance 0) ++
    [.start (.appendRevision (storeRevision "r2")), .start (.appendRevision (storeRevision "r3")),
      .start (.getAction (js "a1")), .advance 1, .advance 2, .advance 3] ++
    List.replicate 7 (.advance 1) ++ List.replicate 2 (.advance 3) ++
    List.replicate 7 (.advance 2)

/-- In the ledger the reader sees the first revision, and both appended ones follow it. -/
theorem process_refines_ledger_interleaved :
    ∃ (events' : List LedgerEvent) (a : LedgerProcess) (history : History) (found : Snapshot),
      (events'.map LedgerEvent.event).Sublist interleavedRun ∧
      runEvents (LedgerProcess.step sampleHost sampleRelay) .fresh events' = some a ∧
      a.ledger.histories (actionKey sampleHost (js "a1")) = some history ∧
      history.bundles.length = 3 ∧
      a.tasks[3]? = some (.settled (.snapshot (js "a1") found)) ∧ found.metadata.revision = 1 := by
  obtain ⟨p, metadata, found, hrun, hmetadata, hrevision, hfound, hread⟩ :
      ∃ p metadata found,
        runEvents (Process.step sampleHost sampleRelay) (.fresh .empty) interleavedRun = some p ∧
        (p.store.actions (actionKey sampleHost (js "a1"))).metadata = some metadata ∧
        metadata.revision = 3 ∧ p.calls[3]? = some (.settled (.snapshot (js "a1") found)) ∧
        found.metadata.revision = 1 :=
    ⟨_, _, _, rfl, rfl, rfl, rfl, rfl⟩
  have hwrites (event : Event) (hevent : event ∈ interleavedRun) : event.Writes {js "a1"} := by
    have hall : interleavedRun.all (Event.writesOnly (js "a1")) = true := by decide
    exact writes_of_writesOnly (List.all_eq_true.mp hall event hevent)
  obtain ⟨events', a, hsublist, hrun', hshows, -, hresults⟩ := process_refines_ledger sampleHost
    sampleRelay {js "a1"} (Set.injOn_singleton _ _) injOn_bytes_singleton hwrites hrun
  obtain ⟨history, hhistory, rfl, -⟩ := (hshows.histories _).exists_history hmetadata
  exact ⟨events', a, history, found, hsublist, hrun', hhistory,
    history.length_eq.trans hrevision, (hresults 3 _).mp hfound, hread⟩

end TimeProofs.Relay
