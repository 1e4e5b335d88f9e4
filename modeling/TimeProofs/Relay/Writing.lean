import TimeProofs.Relay.Locking

/-!
# The writes of a process

What the lock of an action protects: between its first read and its last write a call finds the
metadata of its action as it read it. A revision that the metadata covers is never written again.
-/

namespace TimeProofs.Relay

open TimeProofs.Base TimeProofs.Json TimeProofs.Core TimeProofs.VerdictEngine
  TimeProofs.StripeConnector

theorem padStart_decimal_inj {width m n : Nat}
    (h : padStart width (decimal m) = padStart width (decimal n)) : m = n := by
  have hvalue (k : Nat) : digitsValue (padStart width (decimal k)) = k := by
    rw [padStart, digitsValue_zeros, digitsValue_decimal]
  rw [← hvalue m, h, hvalue n]

/-- Different revisions have different files. -/
theorem revisionFile_inj {m n : Nat} (h : revisionFile m = revisionFile n) : m = n :=
  padStart_decimal_inj (List.append_cancel_right h)

theorem paths_eq {host : Host} {actionId key : JsString}
    (h : paths host (.actionId actionId) = .ok key) : key = actionKey host actionId := by
  rw [paths] at h
  split at h
  · exact (Except.ok.inj h).symm
  · cases h

/-- The revision that the metadata of an action covers; none is revision 0. -/
def committedRevision (files : ActionFiles) : Nat := (files.metadata.map Metadata.revision).getD 0

/-- The content of a revision file. -/
def revisionOf (files : ActionFiles) (n : Nat) : Option Json :=
  member files.revisions (revisionFile n)

theorem revisionOf_setMember (files : ActionFiles) (m n : Nat) (v : Json) :
    revisionOf { files with revisions := setMember files.revisions (revisionFile m) v } n =
      if m = n then some v else revisionOf files n := by
  rw [revisionOf, member_setMember]
  by_cases h : m = n
  · rw [if_pos (congrArg revisionFile h), if_pos h]
  · rw [if_neg (fun heq ↦ h (revisionFile_inj heq)), if_neg h]
    rfl

/-- The files of an action: every revision that the metadata covers is there, and at most one
more has been written. -/
structure FilesOk (files : ActionFiles) : Prop where
  positive : ∀ metadata, files.metadata = some metadata → 1 ≤ metadata.revision
  revisions : ∀ n, 1 ≤ n → n ≤ committedRevision files → ∃ bundle, revisionOf files n = some bundle
  current : ∀ metadata, files.metadata = some metadata → ∃ current, files.current = some current
  names : ∀ name ∈ files.revisions.map Prod.fst, ∃ n, 1 ≤ n ∧
    n ≤ committedRevision files + 1 ∧ name = revisionFile n

/-- The action and the directory of a call that is inside the lock of its action. -/
inductive Critical : Phase → JsString → JsString → Prop where
  | reading {r : NewRevision} {source : Option (Delivery × Snapshot)} {ticket : Nat}
      {actionId : IndexValue} {key : JsString} {progress : Progress} :
      Critical (.reading (.append r source ticket) actionId key progress) r.actionId key
  | writing {writer : Writer} {ticket : Nat} {key : JsString} {metadata : Metadata}
      {next : RevisionPart} :
      Critical (.writing writer ticket key metadata next) writer.actionId key

/-- What `getAction` has read inside the lock is still there. -/
def Progress.StillThere (files : ActionFiles) : Progress → Prop
  | .start => True
  | .metadata m => files.metadata = some m
  | .bundle m b => files.metadata = some m ∧ revisionOf files m.revision = some b

/-- The metadata that a call writes comes from what is there. -/
def Writer.Extends (writer : Writer) (files : ActionFiles) (metadata : Metadata) : Prop :=
  match writer with
  | .create a _ => files.metadata = none ∧ metadata = a.metadata
  | .append r _ => ∃ existing, files.metadata = some existing ∧ r.isDuplicate existing = false ∧
      metadata = r.metadata existing

/-- The files that a call has written inside the lock are still there. -/
def RevisionPart.StillThere (files : ActionFiles) (writer : Writer) (metadata : Metadata) :
    RevisionPart → Prop
  | .bundle => True
  | .current => revisionOf files metadata.revision = some (clone (.obj writer.bundle))
  | .metadata => revisionOf files metadata.revision = some (clone (.obj writer.bundle)) ∧
      files.current = some writer.current

/-- What holds of a call and the files. -/
def CallOk (host : Host) (store : Store) : Phase → Prop
  | .reading (.append r _ _) actionId key progress =>
    actionId = .actionId r.actionId ∧ paths host (.actionId r.actionId) = .ok key ∧
      progress.StillThere (store.actions key)
  | .reading _ actionId key _ => paths host actionId = .ok key
  | .writing writer _ key metadata next =>
    paths host (.actionId writer.actionId) = .ok key ∧
      writer.Extends (store.actions key) metadata ∧
      next.StillThere (store.actions key) writer metadata
  | .listing actionId key => paths host (.actionId actionId) = .ok key
  | .listingFiles actionId key _ _ => paths host (.actionId actionId) = .ok key
  | _ => True

theorem CallOk.path {host : Host} {store : Store} {phase : Phase} (h : CallOk host store phase)
    {actionId key : JsString} (hcritical : Critical phase actionId key) :
    paths host (.actionId actionId) = .ok key := by
  cases hcritical with
  | reading => exact h.2.1
  | writing => exact h.1

/-- A call depends on the files of its own action only. -/
theorem CallOk.frame {host : Host} {store store' : Store} {phase : Phase}
    (h : CallOk host store phase)
    (hsame : ∀ actionId key, Critical phase actionId key → store'.actions key = store.actions key) :
    CallOk host store' phase := by
  cases phase with
  | reading reader actionId key progress =>
    cases reader with
    | append r source ticket =>
      obtain ⟨hid, hkey, hprogress⟩ := h
      exact ⟨hid, hkey, (hsame _ _ .reading).symm ▸ hprogress⟩
    | _ => exact h
  | writing writer ticket key metadata next =>
    obtain ⟨hkey, hextends, hnext⟩ := h
    have heq : store'.actions key = store.actions key := hsame _ _ .writing
    exact ⟨hkey, heq.symm ▸ hextends, heq.symm ▸ hnext⟩
  | _ => exact h

/-- The files of an action after a part of a revision has been written. -/
def ActionFiles.afterWrite (files : ActionFiles) (writer : Writer) (metadata : Metadata) :
    RevisionPart → ActionFiles
  | .bundle =>
    { files with
      revisions := setMember files.revisions (revisionFile metadata.revision)
        (clone (.obj writer.bundle)) }
  | .current => { files with current := some writer.current }
  | .metadata => { files with metadata := some metadata.stored }

/-- What a step does to the files of the actions: nothing, or one part of a revision. -/
inductive StoreStep (store : Store) (phase : Phase) (stepped : Stepped) : Prop where
  | same (hphase : ∀ writer ticket key metadata next,
        phase ≠ .writing writer ticket key metadata next)
      (hactions : stepped.store.actions = store.actions)
  | write {writer : Writer} {ticket : Nat} {key : JsString} {metadata : Metadata}
      {next : RevisionPart} (hphase : phase = .writing writer ticket key metadata next)
      (hactions : stepped.store = store.update key fun files ↦
        files.afterWrite writer metadata next)

theorem storeStep_of_advances {host : Host} {relay : RelayService} {store : Store}
    {locks : Locks JsString} {phase : Phase} {stepped : Stepped}
    (h : Advances host relay store locks phase stepped) : StoreStep store phase stepped := by
  cases h with
  | writeBundle => exact .write rfl rfl
  | writeCurrent => exact .write rfl rfl
  | commitCreate _ => exact .write rfl rfl
  | commitLink _ _ => exact .write rfl rfl
  | commitAppend => exact .write rfl rfl
  | _ =>
    refine .same ?_ rfl
    intro _ _ _ _ _ heq
    cases heq

@[simp] theorem actions_update_self (store : Store) (key : JsString)
    (change : ActionFiles → ActionFiles) :
    (store.update key change).actions key = change (store.actions key) := if_pos rfl

theorem actions_update_ne {store : Store} {key k : JsString} {change : ActionFiles → ActionFiles}
    (h : k ≠ key) : (store.update key change).actions k = store.actions k := if_neg h

/-- A call writes the revision after the one that the metadata covers. -/
theorem Writer.Extends.revision {writer : Writer} {files : ActionFiles} {metadata : Metadata}
    (h : writer.Extends files metadata) : metadata.revision = committedRevision files + 1 := by
  cases writer with
  | create a generatedAt =>
    obtain ⟨hnone, rfl⟩ := h
    rw [committedRevision, hnone]
    rfl
  | append r source =>
    obtain ⟨existing, hexisting, -, rfl⟩ := h
    rw [committedRevision, hexisting]
    rfl

/-- A revision that the metadata covers, with its content. -/
structure Covers (files : ActionFiles) (n : Nat) (bundle : Json) : Prop where
  positive : 1 ≤ n
  committed : n ≤ committedRevision files
  content : revisionOf files n = some bundle

/-- What a run does to the files of an action: the revisions that the metadata covers stay. -/
structure Grows (files files' : ActionFiles) : Prop where
  committed : committedRevision files ≤ committedRevision files'
  kept : ∀ n ≤ committedRevision files, revisionOf files' n = revisionOf files n

theorem Grows.refl (files : ActionFiles) : Grows files files := ⟨Nat.le_refl _, fun _ _ ↦ rfl⟩

theorem Covers.grows {files files' : ActionFiles} {n : Nat} {bundle : Json}
    (h : Covers files n bundle) (hgrows : Grows files files') : Covers files' n bundle where
  positive := h.positive
  committed := Nat.le_trans h.committed hgrows.committed
  content := (hgrows.kept n h.committed).trans h.content

section

variable {files : ActionFiles} {writer : Writer} {metadata : Metadata}

theorem committedRevision_afterWrite (next : RevisionPart) :
    committedRevision (files.afterWrite writer metadata next) =
      if next = .metadata then metadata.revision else committedRevision files := by
  cases next <;> rfl

theorem revisionOf_afterWrite (next : RevisionPart) (n : Nat) :
    revisionOf (files.afterWrite writer metadata next) n =
      if next = .bundle ∧ metadata.revision = n then some (clone (.obj writer.bundle))
      else revisionOf files n := by
  cases next with
  | bundle =>
    rw [ActionFiles.afterWrite, revisionOf_setMember]
    simp only [true_and]
  | current => exact (if_neg (fun h ↦ nomatch h.1)).symm
  | metadata => exact (if_neg (fun h ↦ nomatch h.1)).symm

/-- The revisions that the metadata covers stay when a call writes. -/
theorem grows_afterWrite (h : writer.Extends files metadata) (next : RevisionPart) :
    Grows files (files.afterWrite writer metadata next) := by
  have hrevision := h.revision
  constructor
  · rw [committedRevision_afterWrite]
    split <;> omega
  · intro n hn
    rw [revisionOf_afterWrite, if_neg (by omega)]

/-- The files of an action stay in order when a call writes. -/
theorem FilesOk.afterWrite (hfiles : FilesOk files) (hextends : writer.Extends files metadata)
    {next : RevisionPart} (hnext : next.StillThere files writer metadata) :
    FilesOk (files.afterWrite writer metadata next) := by
  have hrevision := hextends.revision
  cases next with
  | bundle =>
    refine ⟨hfiles.positive, ?_, hfiles.current, ?_⟩
    · intro n hpositive hn
      have hn' : n ≤ committedRevision files := hn
      rw [revisionOf_afterWrite, if_neg (by omega)]
      exact hfiles.revisions n hpositive hn'
    · intro name hname
      rcases mem_map_fst_setMember hname with rfl | hname
      · exact ⟨metadata.revision, by omega, Nat.le_of_eq hrevision, rfl⟩
      · exact hfiles.names name hname
  | current => exact ⟨hfiles.positive, hfiles.revisions, fun m _ ↦ ⟨_, rfl⟩, hfiles.names⟩
  | metadata =>
    obtain ⟨hbundle, hcurrent⟩ := hnext
    refine ⟨?_, ?_, fun m _ ↦ ⟨_, hcurrent⟩, ?_⟩
    · intro m hm
      rw [← Option.some.inj hm]
      show 1 ≤ metadata.revision
      omega
    · intro n hpositive hn
      have hn' : n ≤ metadata.revision := hn
      by_cases heq : n = metadata.revision
      · exact ⟨_, heq ▸ hbundle⟩
      · exact hfiles.revisions n hpositive (by omega)
    · intro name hname
      obtain ⟨n, hpositive, hn, rfl⟩ := hfiles.names name hname
      refine ⟨n, hpositive, ?_, rfl⟩
      show n ≤ metadata.revision + 1
      omega

end

end TimeProofs.Relay
