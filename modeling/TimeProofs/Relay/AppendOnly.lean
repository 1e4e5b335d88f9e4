import TimeProofs.Relay.Snapshots

/-!
# Revisions across crashes

A revision that the metadata covers is never written again. `listRevisions` lists the directory
instead, and so returns a revision file whose metadata is not written yet; a crash in between
leaves it to be written once more. A returned revision stays as long as no crash comes in between
and no such file is listed but while its call is writing it.
-/

namespace TimeProofs.Relay

open TimeProofs.Base TimeProofs.Json TimeProofs.Core TimeProofs.VerdictEngine
  TimeProofs.StripeConnector

/-- A revision number of an action that `getAction` or `listRevisions` has returned. -/
inductive Returned (p : Process) (actionId : JsString) (n : Nat) : Prop where
  | snapshot {i : Nat} {s : Snapshot} (hcall : p.calls[i]? = some (.settled (.snapshot actionId s)))
      (hrevision : s.metadata.revision = n)
  | listing {i : Nat} {entries : List RevisionEntry} {entry : RevisionEntry}
      (hcall : p.calls[i]? = some (.settled (.listing actionId entries))) (hentry : entry ∈ entries)
      (hrevision : entry.revision = n)

/-- A revision whose file a running call has written and whose metadata it is about to write. -/
def Pending (p : Process) (key : JsString) (n : Nat) : Prop :=
  ∃ (i : Nat) (writer : Writer) (ticket : Nat) (metadata : Metadata) (next : RevisionPart),
    p.calls[i]? = some (.writing writer ticket key metadata next) ∧ next ≠ .bundle ∧
      metadata.revision = n

/-- A revision that the metadata covers or that a running call is about to commit. -/
def Held (p : Process) (key : JsString) (n : Nat) : Prop :=
  (1 ≤ n ∧ n ≤ committedRevision (p.store.actions key)) ∨ Pending p key n

/-- What keeps the returned revisions: a directory is listed when each of its revision files is
one that the metadata covers or that a running call is about to commit, and a crash comes when
the metadata covers every returned revision. -/
def Event.KeepsReturned (host : Host) (p : Process) : Event → Prop
  | .start _ => True
  | .advance i => ∀ actionId key, p.calls[i]? = some (.listing actionId key) →
      ∀ n, revisionFile n ∈ revisionNames (p.store.actions key) → Held p key n
  | .crash => ∀ actionId n, Returned p actionId n →
      n ≤ committedRevision (p.store.actions (actionKey host actionId))

theorem mem_revisionNames {files : ActionFiles} {name : JsString} :
    name ∈ revisionNames files ↔ name ∈ files.revisions.map Prod.fst ∧ isRevisionName name := by
  rw [revisionNames, sortNames, List.mem_insertionSort, List.mem_filter]

/-- The number of a listed revision file is read back from its name. -/
theorem revision_revisionEntry {n : Nat} (h : isRevisionName (revisionFile n) = true)
    (bundle : Json) : (revisionEntry (revisionFile n) bundle).revision = n := by
  have hsix : ((revisionFile n).drop 6).length = 12 := by
    rw [isRevisionName, Bool.and_eq_true, decide_eq_true_eq] at h
    rw [h.2]
    rfl
  have hlength : (padStart 6 (decimal n)).length = 6 := by
    rw [revisionFile, List.length_drop, List.length_append,
      show (js ".bundle.json").length = 12 from rfl] at hsix
    have hle : 6 ≤ (padStart 6 (decimal n)).length := by
      rw [padStart, List.length_append, List.length_replicate]
      omega
    omega
  show digitsValue ((revisionFile n).take 6) = n
  rw [revisionFile, List.take_left' hlength, padStart, digitsValue_zeros, digitsValue_decimal]

/-- What a listing has found and returned is there to stay. -/
def Phase.Listed (host : Host) (p : Process) : Phase → Prop
  | .listingFiles _ key names entries =>
    (∀ name ∈ names, isRevisionName name = true ∧ ∃ n, name = revisionFile n ∧ Held p key n) ∧
      ∀ entry ∈ entries, Held p key entry.revision
  | .settled (.listing actionId entries) =>
    ∀ entry ∈ entries, Held p (actionKey host actionId) entry.revision
  | _ => True

section

variable {host : Host} {relay : RelayService} {ids : Set JsString} {p q : Process} {event : Event}
  {key : JsString} {n : Nat}

/-- A held revision has a file. -/
theorem Held.exists_file (h : Held p key n) (horderly : Orderly host ids p) :
    ∃ bundle, revisionOf (p.store.actions key) n = some bundle := by
  rcases h with ⟨hpositive, hle⟩ | ⟨i, writer, ticket, metadata, next, hcall, hnext, rfl⟩
  · exact (horderly.files key).revisions n hpositive hle
  · obtain ⟨-, -, hthere⟩ := horderly.calls i _ hcall
    cases next with
    | bundle => exact absurd rfl hnext
    | current => exact ⟨_, hthere⟩
    | metadata => exact ⟨_, hthere.1⟩

/-- A held revision stays held and keeps its file, unless a crash comes before its metadata. -/
theorem Held.step (h : Held p key n) (horderly : Orderly host ids p)
    (hkeys : Set.InjOn (actionKey host) ids) (hstep : Steps host relay p event q)
    (hcrash : event = .crash → n ≤ committedRevision (p.store.actions key)) :
    Held q key n ∧
      revisionOf (q.store.actions key) n = revisionOf (p.store.actions key) n := by
  have hgrows := horderly.grows hstep key
  rcases h with ⟨hpositive, hle⟩ | ⟨i, writer, ticket, metadata, next, hcall, hnext, rfl⟩
  · exact ⟨.inl ⟨hpositive, Nat.le_trans hle hgrows.committed⟩, hgrows.kept n hle⟩
  · obtain ⟨-, hextends, -⟩ := horderly.calls i _ hcall
    have hpositive : 1 ≤ metadata.revision := by rw [hextends.revision]; omega
    cases hstep with
    | start =>
      refine ⟨.inr ⟨i, writer, ticket, metadata, next, ?_, hnext, rfl⟩, rfl⟩
      show (p.calls ++ _)[i]? = _
      rw [List.getElem?_append_left (List.getElem?_eq_some_iff.mp hcall).1, hcall]
    | crash => exact ⟨.inl ⟨hpositive, hcrash rfl⟩, rfl⟩
    | @advance j phase stepped hother hadvance =>
      by_cases hji : j = i
      · subst hji
        rw [hcall] at hother
        cases hother
        have hcommit {locks : Locks JsString} {phase : Phase} :
            Held ⟨p.store.writeMetadata key metadata, locks, p.calls.set j phase⟩ key
                metadata.revision ∧
              revisionOf ((p.store.writeMetadata key metadata).actions key) metadata.revision =
                revisionOf (p.store.actions key) metadata.revision := by
          rw [Held, Store.writeMetadata, actions_update_self]
          exact ⟨.inl ⟨hpositive, Nat.le_refl _⟩, rfl⟩
        cases hadvance with
        | writeBundle => exact absurd rfl hnext
        | writeCurrent =>
          refine ⟨.inr ⟨j, writer, ticket, metadata, .metadata, ?_, ?_, rfl⟩, ?_⟩
          · exact getElem?_set_self hcall _
          · intro heq
            cases heq
          · rw [Store.writeCurrent, actions_update_self]
            rfl
        | commitCreate _ => exact hcommit
        | commitLink _ _ => exact hcommit
        | commitAppend => exact hcommit
      · refine ⟨.inr ⟨i, writer, ticket, metadata, next, ?_, hnext, rfl⟩, ?_⟩
        · show (p.calls.set j stepped.phase)[i]? = _
          rw [List.getElem?_set_ne hji, hcall]
        · -- another call writes in another directory
          rcases (horderly.files_advance hother (storeStep_of_advances hadvance) key).2.2 with
            hsame | ⟨actionId, hcritical⟩
          · rw [hsame]
          · exact absurd rfl (horderly.critical_ne hkeys hji hother hcall hcritical .writing)

theorem Returned.step {actionId : JsString} (h : Returned p actionId n)
    (hstep : Steps host relay p event q) : Returned q actionId n := by
  cases h with
  | snapshot hcall hrevision => exact .snapshot (hstep.settled hcall) hrevision
  | listing hcall hentry hrevision => exact .listing (hstep.settled hcall) hentry hrevision

/-- What the listings of a process have found and returned is there to stay. -/
def ListedOk (host : Host) (p : Process) : Prop :=
  ∀ (i : Nat) phase, p.calls[i]? = some phase → phase.Listed host p

theorem listedOk_fresh : ListedOk host (.fresh .empty) :=
  fun i phase h ↦ by simp [Process.fresh] at h

/-- A returned revision is held. -/
theorem Returned.held {actionId : JsString} (h : Returned p actionId n)
    (hcovered : CoveredOk host p) (hlisted : ListedOk host p) :
    Held p (actionKey host actionId) n := by
  cases h with
  | snapshot hcall hrevision =>
    have hcovers := hcovered _ _ hcall
    exact .inl ⟨hrevision ▸ hcovers.positive, hrevision ▸ hcovers.committed⟩
  | listing hcall hentry hrevision => exact hrevision ▸ hlisted _ _ hcall _ hentry

theorem listed_linkResult (creating : Option Creating) :
    (Phase.settled (linkResult host creating)).Listed host p := by
  rcases linkResult_cases host creating with heq | ⟨_, heq⟩ | ⟨_, heq⟩ | ⟨_, heq⟩ <;>
    (rw [heq]; trivial)

theorem listed_appendResult (r : NewRevision) (source : Option (Delivery × Snapshot))
    (answer : Appended) : (Phase.settled (appendResult host r source answer)).Listed host p := by
  rcases appendResult_cases host r source answer with ⟨-, heq⟩ | ⟨_, _, _, -, heq⟩ | ⟨_, heq⟩ <;>
    (rw [heq]; trivial)

/-- A step of a call lists what is there to stay. -/
theorem listed_of_advances {i : Nat} {phase : Phase} {stepped : Stepped}
    (hcall : p.calls[i]? = some phase) (horderly : Orderly host ids p)
    (hlisted : phase.Listed host p) (hkeeps : (Event.advance i).KeepsReturned host p)
    (hadvance : Advances host relay p.store p.locks phase stepped)
    (hheld : ∀ key n, Held p key n → Held q key n) : stepped.phase.Listed host q := by
  cases hadvance with
  | @listNames actionId key =>
    refine ⟨fun name hname ↦ ?_, fun entry hentry ↦ (List.not_mem_nil hentry).elim⟩
    obtain ⟨hmem, hrevisionName⟩ := mem_revisionNames.mp hname
    obtain ⟨n, -, -, rfl⟩ := (horderly.files key).names name hmem
    exact ⟨hrevisionName, n, rfl, hheld key n (hkeeps actionId key hcall n hname)⟩
  | @listFile actionId key name names entries bundle hbundle =>
    obtain ⟨hwrites, hentries⟩ := hlisted
    obtain ⟨hrevisionName, n, hname, hn⟩ := hwrites name List.mem_cons_self
    constructor
    · intro other hother
      obtain ⟨hother', m, hm, hheldOther⟩ := hwrites other (List.mem_cons_of_mem name hother)
      exact ⟨hother', m, hm, hheld key m hheldOther⟩
    · intro entry hentry
      rcases List.mem_append.mp hentry with hold | hnew
      · exact hheld key _ (hentries entry hold)
      · rw [List.mem_singleton.mp hnew, hname, revision_revisionEntry (hname ▸ hrevisionName)]
        exact hheld key n hn
  | @listed actionId key entries =>
    intro entry hentry
    rw [← paths_eq (horderly.calls i _ hcall)]
    exact hheld key _ (hlisted.2 entry hentry)
  | readAppended _ _ => exact listed_appendResult _ _ _
  | commitAppend => exact listed_appendResult _ _ _
  | commitCreate hresult =>
    rcases hresult with ⟨-, rfl⟩ | ⟨-, rfl⟩
    · exact listed_linkResult (some ⟨_, _, 0⟩)
    · trivial
  | writeLink => exact listed_linkResult _
  | _ => trivial

/-- Every event that keeps the returned revisions keeps those that a listing has found. -/
theorem ListedOk.step (h : ListedOk host p) (horderly : Orderly host ids p)
    (hkeys : Set.InjOn (actionKey host) ids) (hkeeps : event.KeepsReturned host p)
    (hstep : Steps host relay p event q) : ListedOk host q := by
  have hheld (hne : event ≠ .crash) (key : JsString) (n : Nat) (hn : Held p key n) :
      Held q key n :=
    (hn.step horderly hkeys hstep fun heq ↦ absurd heq hne).1
  intro i phase hi
  cases hstep.origin hi with
  | begun hbegins _ => cases hbegins <;> trivial
  | stepped hcall hadvance _ =>
    exact listed_of_advances hcall horderly (h i _ hcall) hkeeps hadvance (hheld nofun)
  | kept hne hcall =>
    have hold := h i phase hcall
    unfold Phase.Listed at hold ⊢
    split
    · refine ⟨fun name hname ↦ ?_, fun entry hentry ↦ hheld hne _ _ (hold.2 entry hentry)⟩
      obtain ⟨hrevisionName, n, hn, hheldName⟩ := hold.1 name hname
      exact ⟨hrevisionName, n, hn, hheld hne _ n hheldName⟩
    · exact fun entry hentry ↦ hheld hne _ _ (hold entry hentry)
    · trivial
  | @crashed _ old hcall hstore =>
    cases old with
    | settled result =>
      cases result with
      | listing actionId entries =>
        intro entry hentry
        have hn := h i _ hcall entry hentry
        exact (hn.step horderly hkeys hstep fun _ ↦
          hkeeps actionId _ (.listing hcall hentry rfl)).1
      | _ => trivial
    | _ => trivial

/-- A returned revision keeps its file in every event that keeps the returned revisions. -/
theorem Returned.file_step {actionId : JsString} (h : Returned p actionId n)
    (horderly : Orderly host ids p) (hcovered : CoveredOk host p) (hlisted : ListedOk host p)
    (hkeys : Set.InjOn (actionKey host) ids) (hkeeps : event.KeepsReturned host p)
    (hstep : Steps host relay p event q) :
    revisionOf (q.store.actions (actionKey host actionId)) n =
      revisionOf (p.store.actions (actionKey host actionId)) n := by
  apply ((h.held hcovered hlisted).step horderly hkeys hstep _).2
  intro hcrash
  subst hcrash
  exact hkeeps actionId n h

/-- What holds of a process whose events have kept the returned revisions. -/
structure KeptOk (host : Host) (ids : Set JsString) (p : Process) : Prop where
  orderly : Orderly host ids p
  covered : CoveredOk host p
  listed : ListedOk host p

theorem KeptOk.step (h : KeptOk host ids p) (hkeys : Set.InjOn (actionKey host) ids)
    (hwrites : event.Writes ids) (hkeeps : event.KeepsReturned host p)
    (hstep : Steps host relay p event q) : KeptOk host ids q where
  orderly := h.orderly.step hkeys hwrites hstep
  covered := h.covered.step h.orderly hstep
  listed := h.listed.step h.orderly hkeys hkeeps hstep

/-- In every run on ids with bytes of their own in which a directory is listed only while each of
its revision files is committed or about to be, and no crash comes between, a revision that was
returned keeps its file. Ids that share their bytes share a directory, but not a lock. -/
theorem returned_revisions_stay (host : Host) (relay : RelayService) (ids : Set JsString)
    (hids : Set.InjOn utf8 ids) (hsha : Set.InjOn host.sha256 (utf8 '' ids))
    (p q : Process)
    (hrun : Runs (Process.step host relay)
      (fun s event ↦ event.Writes ids ∧ event.KeepsReturned host s) (.fresh .empty) p)
    (hrun' : Runs (Process.step host relay)
      (fun s event ↦ event.Writes ids ∧ event.KeepsReturned host s) p q)
    (actionId : JsString) (n : Nat) (hreturned : Returned p actionId n) :
    ∃ bundle, revisionOf (p.store.actions (actionKey host actionId)) n = some bundle ∧
      revisionOf (q.store.actions (actionKey host actionId)) n = some bundle := by
  have hkeys := injOn_actionKey hids hsha
  have hkeep (s : Process) (event : Event) (t : Process) (hs : KeptOk host ids s)
      (hgood : event.Writes ids ∧ event.KeepsReturned host s)
      (hstep : s.step host relay event = some t) : KeptOk host ids t :=
    hs.step hkeys hgood.1 hgood.2 (steps_of_step hstep)
  have hp : KeptOk host ids p := hrun.keeps hkeep ⟨orderly_fresh, coveredOk_fresh, listedOk_fresh⟩
  obtain ⟨bundle, hbundle⟩ :=
    (hreturned.held hp.covered hp.listed).exists_file hp.orderly
  have hq : KeptOk host ids q ∧ Returned q actionId n ∧
      revisionOf (q.store.actions (actionKey host actionId)) n = some bundle := by
    apply hrun'.keeps _ ⟨hp, hreturned, hbundle⟩
    rintro s event t ⟨hs, hreturned, hfile⟩ hgood hstep
    have hsteps := steps_of_step hstep
    exact ⟨hkeep s event t hs hgood hstep, hreturned.step hsteps,
      (hreturned.file_step hs.orderly hs.covered hs.listed hkeys hgood.2 hsteps).trans hfile⟩
  exact ⟨bundle, hbundle, hq.2.2⟩

end

/-! ### Sample runs -/

/-- The summary that the sample calls of the store write. -/
def storeSummary : CurrentSummary := ⟨none, none, none, .valid, .pending, [], [], [], none⟩

/-- A sample bundle with the given id. -/
def storeBundle (bundleId : String) : Members :=
  [(js "payload", .obj [(js "bundle_id", jsonText bundleId)])]

def storeAction : NewAction := ⟨js "a1", storeBundle "r1", storeSummary, refundRuleset, []⟩

def storeRevision (bundleId : String) : NewRevision :=
  ⟨js "a1", storeBundle bundleId, storeSummary, none⟩

/-- A check that an event without a crash keeps the returned revisions. -/
def Event.listsCommitted (p : Process) : Event → Bool
  | .start _ => true
  | .advance i =>
    match p.calls[i]? with
    | some (.listing _ key) =>
      (revisionNames (p.store.actions key)).all fun name ↦
        (List.range (committedRevision (p.store.actions key))).any fun n ↦
          revisionFile (n + 1) = name
    | _ => true
  | .crash => false

theorem keepsReturned_of_listsCommitted {host : Host} {p : Process} {event : Event}
    (h : event.listsCommitted p = true) : event.KeepsReturned host p := by
  cases event with
  | start request => trivial
  | crash => cases h
  | advance i =>
    intro actionId key hcall n hname
    rw [Event.listsCommitted, hcall] at h
    obtain ⟨k, hk, heq⟩ := List.any_eq_true.mp (List.all_eq_true.mp h _ hname)
    have hn := revisionFile_inj (of_decide_eq_true heq)
    have hlt := List.mem_range.mp hk
    exact .inl ⟨by omega, by omega⟩

/-- An action is created and its directory is listed. -/
def createdRun : List Event :=
  .start (.createAction storeAction) :: List.replicate 5 (.advance 0) ++
    .start (.listRevisions (js "a1")) :: List.replicate 6 (.advance 1)

/-- Its second revision is appended. -/
def appendedRun : List Event :=
  .start (.appendRevision (storeRevision "r2")) :: List.replicate 8 (.advance 2)

/-- The first revision that a listing has returned is still there after the second. -/
theorem returned_revisions_stay_listed :
    ∃ p q : Process, Returned p (js "a1") 1 ∧
      committedRevision (q.store.actions (actionKey sampleHost (js "a1"))) = 2 ∧
      ∃ bundle, revisionOf (p.store.actions (actionKey sampleHost (js "a1"))) 1 = some bundle ∧
        revisionOf (q.store.actions (actionKey sampleHost (js "a1"))) 1 = some bundle := by
  obtain ⟨p, q, entries, hcreated, happended, hcall, hrevisions, hcommitted⟩ : ∃ p q entries,
      runChecked (Process.step sampleHost sampleRelay)
        (fun s event ↦ event.writesOnly (js "a1") && event.listsCommitted s) (.fresh .empty)
          createdRun = some p ∧
      runChecked (Process.step sampleHost sampleRelay)
        (fun s event ↦ event.writesOnly (js "a1") && event.listsCommitted s) p
          appendedRun = some q ∧
      p.calls[1]? = some (.settled (.listing (js "a1") entries)) ∧
      entries.map RevisionEntry.revision = [1] ∧
      committedRevision (q.store.actions (actionKey sampleHost (js "a1"))) = 2 :=
    ⟨_, _, _, rfl, rfl, rfl, rfl, rfl⟩
  have hgood (events : List Event) (event : Event) (_ : event ∈ events) (s : Process)
      (h : (event.writesOnly (js "a1") && event.listsCommitted s) = true) :
      event.Writes {js "a1"} ∧ event.KeepsReturned sampleHost s := by
    rw [Bool.and_eq_true] at h
    exact ⟨writes_of_writesOnly h.1, keepsReturned_of_listsCommitted h.2⟩
  have hreturned : Returned p (js "a1") 1 := by
    have hmem : 1 ∈ entries.map RevisionEntry.revision := by rw [hrevisions]; simp
    obtain ⟨entry, hentry, hrevision⟩ := List.mem_map.mp hmem
    exact .listing hcall hentry hrevision
  exact ⟨p, q, hreturned, hcommitted,
    returned_revisions_stay sampleHost sampleRelay {js "a1"} (Set.injOn_singleton _ _)
      injOn_bytes_singleton p q (runs_of_runChecked (hgood _) hcreated)
      (runs_of_runChecked (hgood _) happended) (js "a1") 1 hreturned⟩

/-- An action is created, a crash comes after the file of its second revision, and the directory
is listed. -/
def listedRun : List Event :=
  .start (.createAction storeAction) :: List.replicate 5 (.advance 0) ++
    .start (.appendRevision (storeRevision "r2")) :: List.replicate 6 (.advance 1) ++
    [.crash, .start (.listRevisions (js "a1"))] ++ List.replicate 7 (.advance 2)

/-- The client appends once more. -/
def retriedRun : List Event :=
  .start (.appendRevision (storeRevision "r3")) :: List.replicate 6 (.advance 3)

/-- A revision that was listed after a crash is written once more. -/
theorem listed_revision_rewritten :
    ¬∀ p q : Process,
      Runs (Process.step sampleHost sampleRelay) (fun _ event ↦ event.Writes {js "a1"})
        (.fresh .empty) p →
      Runs (Process.step sampleHost sampleRelay) (fun _ event ↦ event.Writes {js "a1"}) p q →
      ∀ actionId n, Returned p actionId n →
        ∃ bundle, revisionOf (p.store.actions (actionKey sampleHost actionId)) n = some bundle ∧
          revisionOf (q.store.actions (actionKey sampleHost actionId)) n = some bundle := by
  intro hclaim
  obtain ⟨p, q, entries, hlisted, hretried, hcall, hrevisions, hp, hq⟩ : ∃ p q entries,
      runChecked (Process.step sampleHost sampleRelay) (fun _ event ↦ event.writesOnly (js "a1"))
        (.fresh .empty) listedRun = some p ∧
      runChecked (Process.step sampleHost sampleRelay) (fun _ event ↦ event.writesOnly (js "a1")) p
        retriedRun = some q ∧
      p.calls[2]? = some (.settled (.listing (js "a1") entries)) ∧
      entries.map RevisionEntry.revision = [1, 2] ∧
      revisionOf (p.store.actions (actionKey sampleHost (js "a1"))) 2 =
        some (.obj (storeBundle "r2")) ∧
      revisionOf (q.store.actions (actionKey sampleHost (js "a1"))) 2 =
        some (.obj (storeBundle "r3")) :=
    ⟨_, _, _, rfl, rfl, rfl, rfl, rfl, rfl⟩
  have hreturned : Returned p (js "a1") 2 := by
    have hmem : 2 ∈ entries.map RevisionEntry.revision := by rw [hrevisions]; simp
    obtain ⟨entry, hentry, hrevision⟩ := List.mem_map.mp hmem
    exact .listing hcall hentry hrevision
  obtain ⟨bundle, hbundle, hbundle'⟩ := hclaim p q
    (runs_of_runChecked (fun _ _ _ h ↦ writes_of_writesOnly h) hlisted)
    (runs_of_runChecked (fun _ _ _ h ↦ writes_of_writesOnly h) hretried) (js "a1") 2 hreturned
  rw [hp] at hbundle
  rw [hq] at hbundle'
  have heq : Json.obj (storeBundle "r2") = .obj (storeBundle "r3") :=
    Option.some.inj (hbundle.trans hbundle'.symm)
  have htext : isText (get (get (some (.obj (storeBundle "r2"))) (js "payload"))
      (js "bundle_id")) (js "r3") = true := by
    rw [heq]
    decide
  exact absurd htext (by decide)

end TimeProofs.Relay
