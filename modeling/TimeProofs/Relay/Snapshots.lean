import TimeProofs.Relay.Orderly

/-!
# What the calls have read

The metadata that a call has read covers a revision whose file stays, so the bundle that it reads
is that of the revision even when other calls write in between. The same holds of a revision that
a call reports as appended.
-/

namespace TimeProofs.Relay

open TimeProofs.Base TimeProofs.Json TimeProofs.Core TimeProofs.VerdictEngine
  TimeProofs.StripeConnector

/-- The metadata and the bundle of a snapshot are one revision. -/
def Snapshot.Covered (files : ActionFiles) (s : Snapshot) : Prop :=
  Covers files s.metadata.revision s.bundle

/-- What `getAction` has read is a revision. -/
def Progress.Covered (files : ActionFiles) : Progress → Prop
  | .start => True
  | .metadata m => 1 ≤ m.revision ∧ m.revision ≤ committedRevision files
  | .bundle m b => Covers files m.revision b

/-- A webhook builds on a revision. -/
def Writer.Covered (host : Host) (store : Store) : Writer → Prop
  | .append r (some (_, previous)) => previous.Covered (store.actions (actionKey host r.actionId))
  | _ => True

def Reader.Covered (host : Host) (store : Store) : Reader → Prop
  | .append r source _ => (Writer.append r source).Covered host store
  | _ => True

/-- What a call returns are revisions. -/
def Result.Covered (host : Host) (store : Store) : Result → Prop
  | .snapshot actionId s => s.Covered (store.actions (actionKey host actionId))
  | .delivered _ actionId (.appended (.revision stored) _) =>
    Covers (store.actions (actionKey host actionId)) stored.metadata.revision
      (clone (.obj stored.bundle))
  | _ => True

/-- What a call has read and returned are revisions. -/
def Phase.Covered (host : Host) (store : Store) : Phase → Prop
  | .queueing (.store writer) => writer.Covered host store
  | .waiting (.store writer) _ => writer.Covered host store
  | .reading reader _ key progress =>
    reader.Covered host store ∧ progress.Covered (store.actions key)
  | .writing writer _ _ _ _ => writer.Covered host store
  | .settled result => result.Covered host store
  | _ => True

section

variable {host : Host} {relay : RelayService} {store store' : Store} {locks : Locks JsString}

theorem Progress.Covered.grows {files files' : ActionFiles} {progress : Progress}
    (h : progress.Covered files) (hgrows : Grows files files') : progress.Covered files' := by
  cases progress with
  | start => trivial
  | metadata m => exact ⟨h.1, Nat.le_trans h.2 hgrows.committed⟩
  | bundle m b => exact Covers.grows h hgrows

theorem Writer.Covered.grows {writer : Writer} (h : writer.Covered host store)
    (hgrows : ∀ key, Grows (store.actions key) (store'.actions key)) :
    writer.Covered host store' := by
  cases writer with
  | create a generatedAt => trivial
  | append r source =>
    cases source with
    | none => trivial
    | some source => exact Covers.grows h (hgrows _)

theorem Result.Covered.grows {result : Result} (h : result.Covered host store)
    (hgrows : ∀ key, Grows (store.actions key) (store'.actions key)) :
    result.Covered host store' := by
  unfold Result.Covered at h ⊢
  split
  · exact Covers.grows h (hgrows _)
  · exact Covers.grows h (hgrows _)
  · trivial

/-- What a call has read and returned stays. -/
theorem Phase.Covered.grows {phase : Phase} (h : phase.Covered host store)
    (hgrows : ∀ key, Grows (store.actions key) (store'.actions key)) :
    phase.Covered host store' := by
  cases phase with
  | queueing job =>
    cases job with
    | store writer => exact Writer.Covered.grows h hgrows
    | link _ _ _ => trivial
  | waiting job ticket =>
    cases job with
    | store writer => exact Writer.Covered.grows h hgrows
    | link _ _ _ => trivial
  | reading reader actionId key progress =>
    refine ⟨?_, h.2.grows (hgrows key)⟩
    cases reader with
    | append r source ticket => exact Writer.Covered.grows h.1 hgrows
    | _ => trivial
  | writing writer ticket key metadata next => exact Writer.Covered.grows h hgrows
  | settled result => exact Result.Covered.grows h hgrows
  | _ => trivial

theorem Begins.covered {request : CallRequest} {phase : Phase}
    (h : Begins host relay request phase) (store : Store) : phase.Covered host store := by
  cases h with
  | getAction _ => exact ⟨trivial, trivial⟩
  | listRevisions _ => exact ⟨trivial, trivial⟩
  | _ => trivial

theorem paths_text {actionId : IndexValue} {key : JsString} (h : paths host actionId = .ok key) :
    key = actionKey host actionId.text := by
  cases actionId with
  | actionId id => exact paths_eq h
  | inherited => cases h

theorem covered_appendResult {r : NewRevision} {source : Option (Delivery × Snapshot)}
    {answer : Appended} (h : ∀ stored, answer = .revision stored →
      Covers (store.actions (actionKey host r.actionId)) stored.metadata.revision
        (clone (.obj stored.bundle))) :
    (appendResult host r source answer).Covered host store := by
  rcases appendResult_cases host r source answer with ⟨-, heq⟩ | ⟨_, _, _, -, heq⟩ | ⟨_, heq⟩
  · rw [heq]
    trivial
  · rw [heq]
    cases answer with
    | duplicate existing => trivial
    | revision stored => exact h stored rfl
  · rw [heq]
    trivial

theorem covered_linkResult (creating : Option Creating) :
    (linkResult host creating).Covered host store := by
  rcases linkResult_cases host creating with heq | ⟨_, heq⟩ | ⟨_, heq⟩ | ⟨_, heq⟩ <;>
    (rw [heq]; trivial)

/-- What a call reads in a step are revisions. -/
theorem covered_of_advances {phase : Phase} {stepped : Stepped} (h : phase.Covered host store)
    (hcall : CallOk host store phase) (hfiles : ∀ key, FilesOk (store.actions key))
    (hgrows : ∀ key, Grows (store.actions key) (stepped.store.actions key))
    (hadvance : Advances host relay store locks phase stepped) :
    stepped.phase.Covered host stepped.store := by
  cases hadvance with
  | @enqueue job => cases job <;> exact h
  | enterCreate _ _ _ => trivial
  | enterAppend _ _ => exact ⟨h, trivial⟩
  | @readMetadata reader actionId key metadata hmetadata =>
    refine ⟨h.1, (hfiles key).positive metadata hmetadata, Nat.le_of_eq ?_⟩
    show metadata.revision = committedRevision (store.actions key)
    rw [committedRevision, hmetadata]
    rfl
  | readBundle hbundle => exact ⟨h.1, h.2.1, h.2.2, hbundle⟩
  | @readGet actionId key metadata bundle current hcurrent =>
    show Covers (store.actions (actionKey host actionId.text)) _ _
    rw [← paths_text hcall]
    exact h.2
  | @readPrepared delivery actionId key metadata bundle current r hcurrent hnew hprepared =>
    show Covers (store.actions (actionKey host r.actionId)) _ _
    rw [(prepareRevision_actionId hprepared).1, ← paths_text hcall]
    exact h.2
  | readAppended _ _ =>
    apply covered_appendResult
    intro stored heq
    cases heq
  | readFresh _ _ => exact h.1
  | writeBundle => exact Writer.Covered.grows h hgrows
  | writeCurrent => exact Writer.Covered.grows h hgrows
  | commitCreate hresult =>
    rcases hresult with ⟨-, rfl⟩ | ⟨-, rfl⟩
    · exact covered_linkResult (some ⟨_, _, 0⟩)
    · trivial
  | writeLink => exact covered_linkResult _
  | @commitAppend r source ticket key metadata =>
    obtain ⟨hkey, hextends, hbundle, hcurrent⟩ := hcall
    apply covered_appendResult
    intro stored hstored
    cases hstored
    rw [show actionKey host r.actionId = key from (paths_eq hkey).symm, Store.writeMetadata,
      actions_update_self]
    refine ⟨?_, Nat.le_refl _, hbundle⟩
    show 1 ≤ metadata.revision
    rw [hextends.revision]
    omega
  | _ => trivial

end

/-- What the calls of a process have read and returned are revisions. -/
def CoveredOk (host : Host) (p : Process) : Prop :=
  ∀ (i : Nat) phase, p.calls[i]? = some phase → phase.Covered host p.store

section

variable {host : Host} {relay : RelayService} {ids : Set JsString} {p q : Process} {event : Event}

theorem coveredOk_fresh : CoveredOk host (.fresh .empty) :=
  fun i phase h ↦ by simp [Process.fresh] at h

theorem CoveredOk.step (h : CoveredOk host p) (horderly : Orderly host ids p)
    (hstep : Steps host relay p event q) : CoveredOk host q := by
  have hgrows := fun key ↦ horderly.grows hstep key
  intro i phase hi
  cases hstep.origin hi with
  | begun hbegins _ => exact hbegins.covered q.store
  | @stepped _ before stepped hcall hadvance hstore =>
    rw [hstore] at hgrows ⊢
    exact covered_of_advances (h i before hcall) (horderly.calls i before hcall) horderly.files
      hgrows hadvance
  | kept _ hcall => exact (h i phase hcall).grows hgrows
  | @crashed _ old hcall _ =>
    cases old with
    | settled result => exact (h i _ hcall).grows hgrows
    | _ => trivial

end

end TimeProofs.Relay
