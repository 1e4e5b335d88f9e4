import TimeProofs.Relay.Refinement

/-!
# What a client has been told stays

A client that has been told of a revision of an action reads that revision or a later one from
then on, with all the upstream events that it was told of, also after a crash. This is shown for
the ledger, and holds of the files because their runs are runs of the ledger.
-/

namespace TimeProofs.Relay

open TimeProofs.Base TimeProofs.Json TimeProofs.Core TimeProofs.VerdictEngine
  TimeProofs.StripeConnector

/-- Metadata that follows other metadata of its action: no earlier revision, and no upstream event
less. -/
structure Metadata.Precedes (m m' : Metadata) : Prop where
  revision : m.revision ≤ m'.revision
  seen : m.seenUpstreamEventIds <+: m'.seenUpstreamEventIds

/-- The action and the metadata that a client is told of. -/
def Result.acknowledged : Result → Option (JsString × Metadata)
  | .recorded response => some (response.stored.metadata.actionId, response.stored.metadata)
  | .delivered _ actionId (.duplicate existing) => some (actionId, existing.metadata)
  | .delivered _ actionId (.appended (.duplicate existing) _) => some (actionId, existing.metadata)
  | .delivered _ actionId (.appended (.revision stored) _) => some (actionId, stored.metadata)
  | .snapshot actionId found => some (actionId, found.metadata)
  | .created stored => some (stored.metadata.actionId, stored.metadata)
  | .appended r (.duplicate existing) => some (r.actionId, existing.metadata)
  | .appended r (.revision stored) => some (r.actionId, stored.metadata)
  | .listing _ _ => none
  | .linked => none
  | .rejected _ => none

/-- The ledger has a revision of the action, or a later one. -/
def Ledger.Has (host : Host) (ledger : Ledger) (actionId : JsString) (m : Metadata) : Prop :=
  ∃ key history, paths host (.actionId actionId) = .ok key ∧
    ledger.histories key = some history ∧ m.Precedes history.metadata

/-- A later ledger: every history goes on. -/
def Ledger.Grows (ledger ledger' : Ledger) : Prop :=
  ∀ key history, ledger.histories key = some history → ∃ history',
    ledger'.histories key = some history' ∧ history.metadata.Precedes history'.metadata

/-- What a call has been told, and will tell, is in the ledger. -/
def Task.Told (host : Host) (ledger : Ledger) : Task → Prop
  | .linking _ _ (some (a, _)) => ledger.Has host a.actionId a.metadata
  | .looked _ (.actionId actionId) m _ => ledger.Has host actionId m
  | .looked _ .inherited _ _ => False
  | .settled result => ∀ actionId m, result.acknowledged = some (actionId, m) →
      ledger.Has host actionId m
  | _ => True

/-- A call that reads an action whose client has been told of a revision. -/
def Task.Reads (actionId : JsString) (m : Metadata) : Task → Prop
  | .looking .get (.actionId id) => id = actionId
  | .looked .get (.actionId id) found _ => id = actionId ∧ m.Precedes found
  | .settled (.snapshot id found) => id = actionId ∧ m.Precedes found.metadata
  | .crashed => True
  | _ => False

theorem Metadata.Precedes.refl (m : Metadata) : m.Precedes m := ⟨Nat.le_refl _, List.prefix_rfl⟩

theorem Metadata.Precedes.trans {m m' m'' : Metadata} (h : m.Precedes m') (h' : m'.Precedes m'') :
    m.Precedes m'' :=
  ⟨Nat.le_trans h.revision h'.revision, h.seen.trans h'.seen⟩

/-- The metadata file says the same of the revision and its events. -/
theorem Metadata.precedes_stored (m : Metadata) : m.Precedes m.stored :=
  ⟨Nat.le_refl _, List.prefix_rfl⟩

/-- The next revision follows the metadata before it. -/
theorem NewRevision.precedes_metadata (r : NewRevision) (m : Metadata) :
    m.Precedes (r.metadata m) :=
  ⟨Nat.le_succ _, List.prefix_append _ _⟩

section

variable {host : Host} {relay : RelayService} {ledger ledger' : Ledger} {task task' : Task}
  {observed : Observed} {actionId : JsString} {m : Metadata}

theorem Ledger.Grows.refl (ledger : Ledger) : ledger.Grows ledger :=
  fun _ history h ↦ ⟨history, h, .refl _⟩

theorem Ledger.Has.grows (h : ledger.Has host actionId m) (hgrows : ledger.Grows ledger') :
    ledger'.Has host actionId m := by
  obtain ⟨key, history, hkey, hhistory, hprecedes⟩ := h
  obtain ⟨history', hhistory', hnext⟩ := hgrows key history hhistory
  exact ⟨key, history', hkey, hhistory', hprecedes.trans hnext⟩

/-- A new history, or one that goes on, takes nothing away. -/
theorem Ledger.grows_record {key : JsString} {history : History}
    (h : ∀ old, ledger.histories key = some old → old.metadata.Precedes history.metadata) :
    ledger.Grows (ledger.record key history) := by
  intro k old hold
  by_cases hk : k = key
  · subst hk
    exact ⟨history, histories_record_self ledger k history, h old hold⟩
  · exact ⟨old, (histories_record_ne hk).trans hold, .refl _⟩

/-- The answers of the ledger take nothing away. -/
theorem Answers.grows (h : Answers host relay ledger task ledger' task') :
    ledger.Grows ledger' := by
  cases h with
  | create _ hnew =>
    apply Ledger.grows_record
    intro old hold
    rw [hnew] at hold
    cases hold
  | append _ hhistory _ =>
    apply Ledger.grows_record
    intro old hold
    obtain rfl := Option.some.inj (hhistory.symm.trans hold)
    exact (NewRevision.precedes_metadata _ _).trans (Metadata.precedes_stored _)
  | link _ => exact fun _ history hhistory ↦ ⟨history, hhistory, .refl _⟩
  | _ => exact .refl ledger

theorem Task.Told.grows (h : task.Told host ledger) (hgrows : ledger.Grows ledger') :
    task.Told host ledger' := by
  cases task with
  | linking _ _ created =>
    cases created with
    | none => trivial
    | some created => exact Ledger.Has.grows h hgrows
  | looked _ actionId _ _ =>
    cases actionId with
    | actionId id => exact Ledger.Has.grows h hgrows
    | inherited => exact h
  | settled result => exact fun id m hm ↦ (h id m hm).grows hgrows
  | _ => trivial

/-- The client of a call that has created an action is told of its first revision. -/
theorem acknowledged_createResult {a : NewAction} {generatedAt : Option JsString}
    (h : (createResult host a generatedAt).acknowledged = some (actionId, m)) :
    actionId = a.actionId ∧ m = a.metadata := by
  unfold createResult at h
  dsimp only at h
  split at h
  · cases h
    exact ⟨rfl, rfl⟩
  · split at h
    · cases h
      exact ⟨rfl, rfl⟩
    · cases h

/-- The client of a call that appends is told of what the ledger has answered. -/
theorem acknowledged_appendResult {r : NewRevision} {source : Option (Delivery × Snapshot)}
    {answer : Appended}
    (h : (appendResult host r source answer).acknowledged = some (actionId, m)) :
    actionId = r.actionId ∧
      ((∃ existing, answer = .duplicate existing ∧ m = existing.metadata) ∨
        ∃ stored, answer = .revision stored ∧ m = stored.metadata) := by
  rcases appendResult_cases host r source answer with ⟨-, heq⟩ | ⟨_, _, _, -, heq⟩ | ⟨_, heq⟩
  · rw [heq] at h
    cases answer with
    | duplicate existing =>
      cases h
      exact ⟨rfl, .inl ⟨existing, rfl, rfl⟩⟩
    | revision stored =>
      cases h
      exact ⟨rfl, .inr ⟨stored, rfl, rfl⟩⟩
  · rw [heq] at h
    cases answer with
    | duplicate existing =>
      cases h
      exact ⟨rfl, .inl ⟨existing, rfl, rfl⟩⟩
    | revision stored =>
      cases h
      exact ⟨rfl, .inr ⟨stored, rfl, rfl⟩⟩
  · rw [heq] at h
    cases h

/-- A client that is told of no revision has been told nothing that is not in the ledger. -/
theorem told_settled {result : Result} (h : result.acknowledged = none) :
    (Task.settled result).Told host ledger := by
  intro actionId m heq
  cases h.symm.trans heq

/-- What a call is told is in the ledger. -/
theorem Answers.told (h : Answers host relay ledger task ledger' task')
    (htold : task.Told host ledger) : task'.Told host ledger' := by
  cases h with
  | refuseCreate _ => exact told_settled rfl
  | refuseLink _ => exact told_settled rfl
  | refuseAppend _ => exact told_settled rfl
  | unlinked => exact told_settled rfl
  | missing _ => exact told_settled rfl
  | @create a generatedAt key hkey hnew =>
    have hhas : (ledger.record key a.history).Has host a.actionId a.metadata :=
      ⟨key, a.history, hkey, histories_record_self _ _ _, a.metadata.precedes_stored⟩
    unfold Task.created
    split
    · intro id m hm
      obtain ⟨rfl, rfl⟩ := acknowledged_createResult hm
      exact hhas
    · split
      · exact told_settled rfl
      · exact hhas
    · exact told_settled rfl
  | @link refundId actionId created hfree =>
    cases created with
    | none => exact told_settled rfl
    | some created =>
      intro id m hm
      obtain ⟨rfl, rfl⟩ := acknowledged_createResult hm
      exact Ledger.Has.grows htold fun _ history hhistory ↦ ⟨history, hhistory, .refl _⟩
  | @duplicate r source key history current hkey hhistory _ =>
    intro id m hm
    obtain ⟨rfl, ⟨existing, heq, rfl⟩ | ⟨stored, heq, rfl⟩⟩ := acknowledged_appendResult hm
    · cases heq
      exact ⟨key, history, hkey, hhistory, .refl _⟩
    · cases heq
  | @append r source key history hkey hhistory hnew =>
    intro id m hm
    obtain ⟨rfl, ⟨existing, heq, rfl⟩ | ⟨stored, heq, rfl⟩⟩ := acknowledged_appendResult hm
    · cases heq
    · cases heq
      exact ⟨key, history.append r, hkey, histories_record_self _ _ _,
        Metadata.precedes_stored _⟩
  | find => trivial
  | @look looker actionId key history hkey hhistory =>
    cases actionId with
    | actionId id => exact ⟨key, history, hkey, hhistory, .refl _⟩
    | inherited => cases hkey
  | @looked looker actionId snapshot =>
    cases actionId with
    | inherited => exact htold.elim
    | actionId id =>
      cases looker with
      | get =>
        rintro _ _ ⟨⟩
        exact htold
      | list => trivial
      | webhook delivery =>
        rw [Looker.next]
        split
        · rintro _ _ ⟨⟩
          exact htold
        · split
          · trivial
          · exact told_settled rfl
  | list => exact told_settled rfl

/-- A call reads what the ledger has. -/
theorem Answers.reads (h : Answers host relay ledger task ledger' task')
    (hhas : ledger.Has host actionId m) (hreads : task.Reads actionId m) :
    task'.Reads actionId m := by
  cases h with
  | @look looker id key history hkey hhistory =>
    cases looker with
    | get =>
      cases id with
      | inherited => cases hkey
      | actionId id =>
        obtain rfl : id = actionId := hreads
        obtain ⟨key', history', hkey', hhistory', hprecedes⟩ := hhas
        obtain rfl : key = key' := Except.ok.inj (hkey.symm.trans hkey')
        obtain rfl := Option.some.inj (hhistory.symm.trans hhistory')
        exact ⟨rfl, hprecedes⟩
    | _ => exact hreads.elim
  | @looked looker id snapshot =>
    cases looker with
    | get =>
      cases id with
      | inherited => exact hreads.elim
      | actionId id => exact hreads
    | _ => exact hreads.elim
  | @missing looker id reason hmissing =>
    cases looker with
    | get =>
      cases id with
      | inherited => exact hreads.elim
      | actionId id =>
        obtain rfl : id = actionId := hreads
        obtain ⟨key, history, hkey, hhistory, -⟩ := hhas
        exact nomatch (hmissing key hkey).symm.trans hhistory
    | _ => exact hreads.elim
  | _ => exact hreads.elim

end

/-- What an event does to the ledger, and where the calls come from that there are after it. -/
structure LedgerSteps (host : Host) (relay : RelayService) (a b : LedgerProcess) : Prop where
  grows : a.ledger.Grows b.ledger
  length_le : a.tasks.length ≤ b.tasks.length
  calls : ∀ (i : Nat) task', b.tasks[i]? = some task' →
    (i = a.tasks.length ∧ ∃ request, task' = .begin host relay request) ∨
      ∃ task, a.tasks[i]? = some task ∧ (task' = task ∨ task' = task.crash ∨
        Answers host relay a.ledger task b.ledger task')

section

variable {host : Host} {relay : RelayService} {a b : LedgerProcess} {event : LedgerEvent}
  {actionId : JsString} {m : Metadata} {j : Nat}

theorem ledgerSteps_of_step (h : a.step host relay event = some b) :
    LedgerSteps host relay a b := by
  cases event with
  | start request =>
    cases h
    refine ⟨.refl _, by simp, fun i task' hi ↦ ?_⟩
    rcases getElem?_append_eq_some hi with ⟨rfl, rfl⟩ | hi
    · exact .inl ⟨rfl, request, rfl⟩
    · exact .inr ⟨task', hi, .inl rfl⟩
  | crash =>
    cases h
    refine ⟨.refl _, by simp, fun i task' hi ↦ ?_⟩
    rw [List.getElem?_map, Option.map_eq_some_iff] at hi
    obtain ⟨task, htask, rfl⟩ := hi
    exact .inr ⟨task, htask, .inr (.inl rfl)⟩
  | advance call observed =>
    rw [LedgerProcess.step] at h
    split at h
    · cases h
    · next task htask =>
      obtain ⟨⟨ledger', task'⟩, hnext, rfl⟩ := Option.map_eq_some_iff.mp h
      have hanswers := answers_of_next hnext
      refine ⟨hanswers.grows, by simp, fun i other hi ↦ ?_⟩
      rcases getElem?_set_eq_some hi with ⟨rfl, rfl⟩ | ⟨-, hi⟩
      · exact .inr ⟨task, htask, .inr (.inr hanswers)⟩
      · exact .inr ⟨other, hi, .inl rfl⟩

theorem told_begin (host : Host) (relay : RelayService) (request : CallRequest) (ledger : Ledger) :
    (Task.begin host relay request).Told host ledger := by
  cases request with
  | createAction a => trivial
  | appendRevision r => trivial
  | registerStripeRefund refundId actionId =>
    cases refundId with
    | str refundId =>
      rw [Task.begin]
      split
      · exact told_settled rfl
      · trivial
    | _ => exact told_settled rfl
  | _ =>
    rw [Task.begin]
    split
    · trivial
    · exact told_settled rfl

/-- What the calls have been told is in the ledger. -/
def RecordsTold (host : Host) (a : LedgerProcess) : Prop :=
  ∀ (i : Nat) task, a.tasks[i]? = some task → task.Told host a.ledger

theorem recordsTold_fresh : RecordsTold host .fresh :=
  fun i task h ↦ by simp [LedgerProcess.fresh] at h

theorem RecordsTold.step (h : RecordsTold host a) (hstep : LedgerSteps host relay a b) :
    RecordsTold host b := by
  intro i task' hi
  rcases hstep.calls i task' hi with ⟨-, request, rfl⟩ | ⟨task, htask, rfl | rfl | hanswers⟩
  · exact told_begin host relay request b.ledger
  · exact (h i task' htask).grows hstep.grows
  · cases task with
    | settled result => exact (h i _ htask).grows hstep.grows
    | _ => trivial
  · exact hanswers.told (h i task htask)

/-- A call reads an action whose client has been told of a revision. -/
structure ReadsOk (host : Host) (actionId : JsString) (m : Metadata) (j : Nat)
    (a : LedgerProcess) : Prop where
  has : a.ledger.Has host actionId m
  lt : j < a.tasks.length
  reads : ∀ task, a.tasks[j]? = some task → task.Reads actionId m

theorem ReadsOk.step (h : ReadsOk host actionId m j a) (hstep : LedgerSteps host relay a b) :
    ReadsOk host actionId m j b := by
  refine ⟨h.has.grows hstep.grows, Nat.lt_of_lt_of_le h.lt hstep.length_le, fun task' hj ↦ ?_⟩
  rcases hstep.calls j task' hj with ⟨heq, -⟩ | ⟨task, htask, rfl | rfl | hanswers⟩
  · exact absurd heq (Nat.ne_of_lt h.lt)
  · exact h.reads task' htask
  · cases task with
    | settled result => exact h.reads _ htask
    | _ => trivial
  · exact hanswers.reads h.has (h.reads task htask)

end

/-! ### Runs of the relay -/

section

variable {host : Host} {relay : RelayService} {ids : Set JsString} {p q : Process}
  {a : LedgerProcess}

/-- A call that starts in the relay starts in the ledger. -/
theorem Mirrors.start (h : Mirrors host ids p a) (hkeys : Set.InjOn (actionKey host) ids)
    {request : CallRequest} (hwrites : (Event.start request).Writes ids)
    (hstep : p.step host relay (.start request) = some q) :
    Mirrors host ids q { a with tasks := a.tasks ++ [.begin host relay request] } := by
  rcases mirrors_simulates hkeys p a _ q h hwrites hstep with hsame | ⟨event, b, heq, hb, hmirrors⟩
  · cases hstep
    have hlength := hsame.length_eq
    have hbefore := h.length_eq
    simp only [List.length_append, List.length_singleton] at hlength
    omega
  · cases event with
    | start other =>
      cases heq
      cases hb
      exact hmirrors
    | _ => cases heq

/-- What has been returned in a run are revisions. -/
theorem run_covered (hkeys : Set.InjOn (actionKey host) ids) {events : List Event}
    (hwrites : ∀ event ∈ events, event.Writes ids)
    (hrun : runEvents (Process.step host relay) (.fresh .empty) events = some p) :
    CoveredOk host p := by
  have hinv : Orderly host ids p ∧ CoveredOk host p := by
    have hruns :
        Runs (Process.step host relay) (fun _ event ↦ event.Writes ids) (.fresh .empty) p :=
      runs_of_runEvents (fun event hevent _ ↦ hwrites event hevent) hrun
    apply hruns.keeps _ ⟨orderly_fresh, coveredOk_fresh⟩
    rintro s event t ⟨horderly, hcovered⟩ hevent hstep
    have hsteps := steps_of_step hstep
    exact ⟨horderly.step hkeys hevent hsteps, hcovered.step horderly hsteps⟩
  exact hinv.2

/-- In every run, with crashes, whoever reads an action after a client has been told of a revision
of it reads the bundle of that revision or of a later one, with metadata that lists all upstream
events which the metadata told had listed; the call does not fail. -/
theorem acknowledged_revisions_are_read (host : Host) (relay : RelayService) (ids : Set JsString)
    (hids : Set.InjOn utf8 ids) (hsha : Set.InjOn host.sha256 (utf8 '' ids))
    {events events' : List Event} {p q : Process}
    {i : Nat} {result answer : Result} {actionId : JsString} {m : Metadata}
    (hwrites : ∀ event ∈ events ++ .start (.getAction actionId) :: events', event.Writes ids)
    (hrun : runEvents (Process.step host relay) (.fresh .empty) events = some p)
    (htold : p.calls[i]? = some (.settled result))
    (hacknowledged : result.acknowledged = some (actionId, m))
    (hrun' : runEvents (Process.step host relay) p (.start (.getAction actionId) :: events') =
      some q)
    (hanswer : q.calls[p.calls.length]? = some (.settled answer)) :
    ∃ found, answer = .snapshot actionId found ∧ m.Precedes found.metadata ∧
      Covers (q.store.actions (actionKey host actionId)) found.metadata.revision found.bundle := by
  have hkeys := injOn_actionKey hids hsha
  have hcovered : CoveredOk host q :=
    run_covered hkeys hwrites ((runEvents_append hrun _).trans hrun')
  have hsimulates : Simulates (Process.step host relay) (LedgerProcess.step host relay)
      LedgerEvent.event (fun _ event ↦ event.Writes ids) (Mirrors host ids) :=
    mirrors_simulates hkeys
  rw [List.forall_mem_append, List.forall_mem_cons] at hwrites
  obtain ⟨hbefore, hstart, hafter⟩ := hwrites
  -- The ledger has the revision when the call starts.
  obtain ⟨events₁, a, -, hrun₁, hmirrors⟩ :=
    hsimulates.exists_run (fun event hevent _ ↦ hbefore event hevent) mirrors_fresh hrun
  have hrecords : RecordsTold host a :=
    runEvents_keeps (fun _ _ _ h hstep ↦ h.step (ledgerSteps_of_step hstep)) hrun₁
      recordsTold_fresh
  have hhas : a.ledger.Has host actionId m :=
    hrecords i _ ((hmirrors.settled_iff i result).mp htold) actionId m hacknowledged
  -- The call is one of the ledger, and reads what it has.
  obtain ⟨p', hp'⟩ : ∃ p', p.step host relay (.start (.getAction actionId)) = some p' := ⟨_, rfl⟩
  rw [runEvents_cons hp'] at hrun'
  have hmirrors' := hmirrors.start hkeys hstart hp'
  obtain ⟨events₂, b, -, hrun₂, hmirrors₂⟩ :=
    hsimulates.exists_run (fun event hevent _ ↦ hafter event hevent) hmirrors' hrun'
  have hreads : ReadsOk host actionId m p.calls.length b := by
    apply runEvents_keeps (fun _ _ _ h hstep ↦ h.step (ledgerSteps_of_step hstep)) hrun₂
    refine ⟨hhas, by simp [hmirrors.length_eq], fun task htask ↦ ?_⟩
    rw [← hmirrors.length_eq, List.getElem?_concat_length] at htask
    obtain ⟨key, history, hkey, -⟩ := hhas
    obtain rfl := Option.some.inj htask
    simp only [Task.begin, hkey]
    exact rfl
  have hsettled := hreads.reads _ ((hmirrors₂.settled_iff _ answer).mp hanswer)
  cases answer with
  | snapshot id found =>
    obtain ⟨rfl, hprecedes⟩ := hsettled
    exact ⟨found, rfl, hprecedes, hcovered _ _ hanswer⟩
  | _ => exact hsettled.elim

end

/-- The process crashes after two revisions have been appended. -/
def crashedRun : List Event := interleavedRun ++ [.crash]

/-- The action is read after the crash. -/
def readAgainRun : List Event :=
  .start (.getAction (js "a1")) :: List.replicate 3 (.advance 4)

/-- The third revision, which was acknowledged before the crash, is read after it. -/
theorem acknowledged_revisions_are_read_again :
    ∃ (q : Process) (found : Snapshot),
      runEvents (Process.step sampleHost sampleRelay) (.fresh .empty)
        (crashedRun ++ readAgainRun) = some q ∧
      q.calls[4]? = some (.settled (.snapshot (js "a1") found)) ∧ 3 ≤ found.metadata.revision := by
  obtain ⟨p, q, stored, answer, hrun, hrevision, htold, hrun', hanswer, hlength⟩ :
      ∃ p q stored answer,
        runEvents (Process.step sampleHost sampleRelay) (.fresh .empty) crashedRun = some p ∧
        stored.metadata.revision = 3 ∧
        p.calls[2]? = some (.settled (.appended (storeRevision "r3") (.revision stored))) ∧
        runEvents (Process.step sampleHost sampleRelay) p readAgainRun = some q ∧
        q.calls[4]? = some (.settled answer) ∧ p.calls.length = 4 :=
    ⟨_, _, _, _, rfl, rfl, rfl, rfl, rfl, rfl⟩
  have hwrites (event : Event) (hevent : event ∈ crashedRun ++ readAgainRun) :
      event.Writes {js "a1"} := by
    have hall : (crashedRun ++ readAgainRun).all (Event.writesOnly (js "a1")) = true := by decide
    exact writes_of_writesOnly (List.all_eq_true.mp hall event hevent)
  obtain ⟨found, rfl, hprecedes, -⟩ := acknowledged_revisions_are_read sampleHost sampleRelay
    {js "a1"} (Set.injOn_singleton _ _) injOn_bytes_singleton hwrites hrun htold rfl hrun'
    (hlength ▸ hanswer)
  exact ⟨q, found, (runEvents_append hrun _).trans hrun', hanswer, hrevision ▸ hprecedes.revision⟩

end TimeProofs.Relay
