import TimeProofs.Relay.AtMostOnce
import TimeProofs.Relay.Served

/-!
# Reading an action

`getAction` reads three files one after the other without the lock. The bundle is always that of
the metadata. `current.json` belongs to the same revision exactly when the call that last wrote
it wrote that revision, which a run records here beside the process.
-/

namespace TimeProofs.Relay

open TimeProofs.Base TimeProofs.Json TimeProofs.Core TimeProofs.VerdictEngine
  TimeProofs.StripeConnector

/-- The summary of a snapshot is computed from its bundle, under the ruleset of its metadata. -/
def Snapshot.Consistent (host : Host) (s : Snapshot) : Prop :=
  ∃ bundle verification evaluation, s.bundle = .obj bundle ∧
    verifyBundle host.toRuntime s.bundle = .ok verification ∧
    evaluateBundle host.toRuntime s.bundle s.metadata.ruleset = .ok evaluation ∧
    s.current.bundleId = bundleId bundle ∧
    s.current.payloadDigest = verification.payloadDigest ∧
    s.current.verdict = evaluation.verdict

/-- A process with the revision that the `current.json` of each action was last written for. -/
structure Watched where
  process : Process
  written : JsString → Nat

/-- The revisions of the `current.json` files after an event. -/
def Watched.writtenAfter (w : Watched) : Event → JsString → Nat
  | .advance i =>
    match w.process.calls[i]? with
    | some (.writing _ _ key metadata next) =>
      fun k ↦ if next = .current ∧ k = key then metadata.revision else w.written k
    | _ => w.written
  | _ => w.written

/-- One event of a watched process. -/
def Watched.step (host : Host) (relay : RelayService) (w : Watched) (event : Event) :
    Option Watched :=
  (w.process.step host relay event).map fun process ↦ ⟨process, w.writtenAfter event⟩

/-- A process that has just started, watched. -/
def Watched.fresh : Watched := ⟨.fresh .empty, fun _ ↦ 0⟩

/-- `getAction` reads `current.json` when it was last written for the revision of the metadata
that the call has read. -/
def Event.ReadsTogether (w : Watched) : Event → Prop
  | .advance i => ∀ actionId key m b,
      w.process.calls[i]? = some (.reading .get actionId key (.bundle m b)) →
        w.written key = m.revision
  | _ => True

section

variable {host : Host} {relay : RelayService}

theorem steps_of_watched {w w' : Watched} {event : Event}
    (h : w.step host relay event = some w') :
    Steps host relay w.process event w'.process ∧ w'.written = w.writtenAfter event := by
  obtain ⟨process, hprocess, rfl⟩ := Option.map_eq_some_iff.mp h
  exact ⟨steps_of_step hprocess, rfl⟩

/-- Every run of a process can be watched. -/
theorem exists_watched {Good : Process → Event → Prop} {p q : Process}
    (h : Runs (Process.step host relay) Good p q) (written : JsString → Nat) :
    ∃ written', Runs (Watched.step host relay) (fun w event ↦ Good w.process event)
      ⟨p, written⟩ ⟨q, written'⟩ := by
  induction h with
  | refl => exact ⟨written, .refl⟩
  | @next s t e _ hgood hstep ih =>
    obtain ⟨written', hrun⟩ := ih
    refine ⟨Watched.writtenAfter ⟨s, written'⟩ e, .next hrun hgood ?_⟩
    rw [Watched.step, hstep]
    rfl

/-- The run of a watched process without its records. -/
theorem runs_of_watched {Good : Process → Event → Prop} {w w' : Watched}
    (h : Runs (Watched.step host relay) (fun w event ↦ Good w.process event) w w') :
    Runs (Process.step host relay) Good w.process w'.process := by
  induction h with
  | refl => exact .refl
  | next _ hgood hstep ih =>
    obtain ⟨process, hprocess, rfl⟩ := Option.map_eq_some_iff.mp hstep
    exact .next ih hgood hprocess

theorem writtenAfter_writing {w : Watched} {i : Nat} {writer : Writer} {ticket : Nat}
    {key : JsString} {metadata : Metadata} {next : RevisionPart}
    (hcall : w.process.calls[i]? = some (.writing writer ticket key metadata next))
    (k : JsString) : w.writtenAfter (.advance i) k =
      if next = .current ∧ k = key then metadata.revision else w.written k := by
  rw [Watched.writtenAfter, hcall]

theorem writtenAfter_of_ne {w : Watched} {i : Nat} {phase : Phase}
    (hcall : w.process.calls[i]? = some phase)
    (hne : ∀ writer ticket key metadata next,
      phase ≠ .writing writer ticket key metadata next) :
    w.writtenAfter (.advance i) = w.written := by
  rw [Watched.writtenAfter, hcall]
  cases phase with
  | writing writer ticket key metadata next => exact absurd rfl (hne _ _ _ _ _)
  | _ => rfl

end

/-! ### The invariant -/

/-- A call that is about to write the metadata has written `current.json`, and what `getAction`
has returned is consistent. -/
def Phase.ReadOk (host : Host) (written : JsString → Nat) : Phase → Prop
  | .writing _ _ key metadata .metadata => written key = metadata.revision
  | .settled (.snapshot _ s) => s.Consistent host
  | _ => True

/-- A `current.json` that was written for a revision that the metadata covers is computed from
the bundle of that revision. -/
structure WrittenOk (host : Host) (w : Watched) : Prop where
  current : ∀ key current, (w.process.store.actions key).current = some current →
    1 ≤ w.written key → w.written key ≤ committedRevision (w.process.store.actions key) →
    ∃ bundle generatedAt,
      revisionOf (w.process.store.actions key) (w.written key) = some (.obj bundle) ∧
        currentSummary host bundle refundRuleset generatedAt = .ok current
  calls : ∀ (i : Nat) phase, w.process.calls[i]? = some phase → phase.ReadOk host w.written

section

variable {host : Host} {relay : RelayService} {ids : Set JsString} {w w' : Watched}
  {event : Event}

theorem writtenOk_fresh : WrittenOk host .fresh where
  current := nofun
  calls := fun i phase h ↦ by simp [Watched.fresh, Process.fresh] at h

/-- What `getAction` returns when it reads `current.json` together with its metadata. -/
theorem WrittenOk.consistent (h : WrittenOk host w) (hserved : ServedOk host relay w.process)
    (hcovered : CoveredOk host w.process) {i : Nat} {actionId : IndexValue} {key : JsString}
    {metadata : Metadata} {bundle : Json} {current : CurrentSummary}
    (hcall : w.process.calls[i]? = some (.reading .get actionId key (.bundle metadata bundle)))
    (hcurrent : (w.process.store.actions key).current = some current)
    (hwritten : w.written key = metadata.revision) :
    Snapshot.Consistent host { metadata, bundle, current } := by
  obtain ⟨-, hcovers⟩ := hcovered i _ hcall
  obtain ⟨stored, generatedAt, hstored, hsummary⟩ := h.current key current hcurrent
    (hwritten ▸ hcovers.positive) (hwritten ▸ hcovers.committed)
  rw [hwritten, hcovers.content] at hstored
  obtain rfl := Option.some.inj hstored
  have hruleset : metadata.ruleset = refundRuleset := hserved.calls i _ hcall
  obtain ⟨verification, evaluation, hverify, hevaluate, hid, hdigest, -, hverdict⟩ :=
    currentSummary_eq_ok hsummary
  refine ⟨stored, verification, evaluation, rfl, hverify, ?_, hid, hdigest, hverdict⟩
  rw [hruleset]
  exact hevaluate

/-- What a call that takes a step does to the `current.json` of an action. -/
private theorem current_of_advance (h : WrittenOk host w) (hserved : ServedOk host relay w.process)
    (horderly : Orderly host ids w.process) {i : Nat} {phase : Phase} {stepped : Stepped}
    (hcall : w.process.calls[i]? = some phase)
    (hadvance : Advances host relay w.process.store w.process.locks phase stepped)
    (key : JsString) (current : CurrentSummary)
    (hcurrent : (stepped.store.actions key).current = some current)
    (hpositive : 1 ≤ w.writtenAfter (.advance i) key)
    (hle : w.writtenAfter (.advance i) key ≤ committedRevision (stepped.store.actions key)) :
    ∃ bundle generatedAt,
      revisionOf (stepped.store.actions key) (w.writtenAfter (.advance i) key) =
        some (.obj bundle) ∧
      currentSummary host bundle refundRuleset generatedAt = .ok current := by
  cases storeStep_of_advances hadvance with
  | same hphase hactions =>
    rw [writtenAfter_of_ne hcall hphase] at hpositive hle ⊢
    rw [hactions] at hcurrent hle ⊢
    exact h.current key current hcurrent hpositive hle
  | @write writer ticket written metadata next hphase hactions =>
    subst hphase
    obtain ⟨-, hextends, hnext⟩ := horderly.calls i _ hcall
    have hrevision := hextends.revision
    rw [hactions] at hcurrent hle ⊢
    rw [writtenAfter_writing hcall] at hpositive hle ⊢
    by_cases hkey : key = written
    · subst hkey
      rw [actions_update_self] at hcurrent hle ⊢
      rw [committedRevision_afterWrite] at hle
      rw [revisionOf_afterWrite]
      cases next with
      | bundle =>
        simp only [reduceCtorEq, false_and, if_false, true_and] at hpositive hle ⊢
        rw [if_neg (by omega)]
        exact h.current key current hcurrent hpositive hle
      | current =>
        -- the metadata does not cover this revision yet
        simp only [and_self, if_true, reduceCtorEq, if_false] at hle
        omega
      | metadata =>
        simp only [reduceCtorEq, false_and, if_false]
        obtain ⟨hbundle, hsummary⟩ := hnext
        have hmade := hserved.calls i _ hcall
        have hcurrent' : current = writer.current :=
          Option.some.inj (hcurrent.symm.trans hsummary)
        obtain ⟨generatedAt, hsummarizes⟩ := Writer.Made.summary hmade
        refine ⟨writer.bundle, generatedAt, ?_, hcurrent' ▸ hsummarizes⟩
        rw [show w.written key = metadata.revision from h.calls i _ hcall, hbundle,
          (Writer.Made.plain hmade).clone_eq]
    · rw [actions_update_ne hkey] at hcurrent hle ⊢
      rw [if_neg (fun heq ↦ hkey heq.2)] at hpositive hle ⊢
      exact h.current key current hcurrent hpositive hle

theorem Begins.readOk {request : CallRequest} {phase : Phase}
    (h : Begins host relay request phase) (written : JsString → Nat) :
    phase.ReadOk host written := by
  cases h <;> trivial

theorem readOk_linkResult (written : JsString → Nat) (creating : Option Creating) :
    (Phase.settled (linkResult host creating)).ReadOk host written := by
  rcases linkResult_cases host creating with heq | ⟨_, heq⟩ | ⟨_, heq⟩ | ⟨_, heq⟩ <;>
    (rw [heq]; trivial)

theorem readOk_appendResult (written : JsString → Nat) (r : NewRevision)
    (source : Option (Delivery × Snapshot)) (answer : Appended) :
    (Phase.settled (appendResult host r source answer)).ReadOk host written := by
  rcases appendResult_cases host r source answer with ⟨-, heq⟩ | ⟨_, _, _, -, heq⟩ | ⟨_, heq⟩ <;>
    (rw [heq]; trivial)

/-- A call that takes a step. -/
private theorem readOk_of_advance (h : WrittenOk host w) (hserved : ServedOk host relay w.process)
    (hcovered : CoveredOk host w.process) {i : Nat} {phase : Phase} {stepped : Stepped}
    (hcall : w.process.calls[i]? = some phase) (hreads : (Event.advance i).ReadsTogether w)
    (hadvance : Advances host relay w.process.store w.process.locks phase stepped) :
    stepped.phase.ReadOk host (w.writtenAfter (.advance i)) := by
  cases hadvance with
  | readGet hcurrent =>
    exact h.consistent hserved hcovered hcall hcurrent (hreads _ _ _ _ hcall)
  | @writeCurrent writer ticket key metadata =>
    show w.writtenAfter (.advance i) key = metadata.revision
    rw [writtenAfter_writing hcall, if_pos ⟨rfl, rfl⟩]
  | readAppended _ _ => exact readOk_appendResult _ _ _ _
  | commitAppend => exact readOk_appendResult _ _ _ _
  | commitCreate hresult =>
    rcases hresult with ⟨-, rfl⟩ | ⟨-, rfl⟩
    · exact readOk_linkResult _ (some ⟨_, _, 0⟩)
    · trivial
  | writeLink => exact readOk_linkResult _ _
  | _ => trivial

/-- What another call does to the `current.json` of a call that is about to write its metadata. -/
private theorem written_of_critical (horderly : Orderly host ids w.process)
    (hkeys : Set.InjOn (actionKey host) ids) {i j : Nat} {phase other : Phase} (hne : j ≠ i)
    (hcall : w.process.calls[i]? = some phase) (hother : w.process.calls[j]? = some other)
    {actionId key : JsString} (hcritical : Critical other actionId key) :
    w.writtenAfter (.advance i) key = w.written key := by
  cases phase with
  | writing writer ticket written metadata next =>
    rw [writtenAfter_writing hcall, if_neg]
    intro heq
    exact horderly.critical_ne hkeys hne hother hcall hcritical .writing heq.2
  | _ =>
    rw [writtenAfter_of_ne hcall]
    intro _ _ _ _ _ heq
    cases heq

/-- Every event of the service keeps a watched process when `getAction` reads files that were
written together. -/
theorem WrittenOk.step (h : WrittenOk host w) (hserved : ServedOk host relay w.process)
    (hcovered : CoveredOk host w.process) (horderly : Orderly host ids w.process)
    (hkeys : Set.InjOn (actionKey host) ids) (hreads : event.ReadsTogether w)
    (hstep : Steps host relay w.process event w'.process)
    (hwritten : w'.written = w.writtenAfter event) : WrittenOk host w' := by
  obtain ⟨process, written⟩ := w'
  subst hwritten
  constructor
  · intro key current hcurrent hpositive hle
    cases hstep with
    | start => exact h.current key current hcurrent hpositive hle
    | crash => exact h.current key current hcurrent hpositive hle
    | advance hcall hadvance =>
      exact current_of_advance h hserved horderly hcall hadvance key current hcurrent hpositive hle
  · intro i phase hi
    cases hstep with
    | start =>
      rcases getElem?_append_eq_some hi with ⟨-, rfl⟩ | hi
      · exact (begins host relay _).readOk _
      · exact h.calls i phase hi
    | @advance j before stepped hcall hadvance =>
      rcases getElem?_set_eq_some hi with ⟨rfl, rfl⟩ | ⟨hne, hi⟩
      · exact readOk_of_advance h hserved hcovered hcall hreads hadvance
      · have hold := h.calls i phase hi
        unfold Phase.ReadOk at hold ⊢
        split
        · dsimp only
          rw [written_of_critical horderly hkeys hne hcall hi .writing]
          exact hold
        · exact hold
        · trivial
    | crash =>
      rw [List.getElem?_map, Option.map_eq_some_iff] at hi
      obtain ⟨old, hold, rfl⟩ := hi
      cases old with
      | settled result => exact h.calls i _ hold
      | _ => trivial

/-- In every run of the service in which `getAction` reads each `current.json` when it was last
written for the revision of the metadata read, what it returns is one revision: the bundle is that
of the metadata, and the summary is computed from it. -/
theorem reads_are_consistent (host : Host) (relay : RelayService) (ids : Set JsString)
    (hids : Set.InjOn utf8 ids) (hsha : Set.InjOn host.sha256 (utf8 '' ids))
    (w : Watched)
    (hrun : Runs (Watched.step host relay)
      (fun s event ↦ event.Writes ids ∧ event.Served ∧ event.ReadsTogether s) .fresh w)
    (i : Nat) (actionId : JsString) (s : Snapshot)
    (hreturned : w.process.calls[i]? = some (.settled (.snapshot actionId s))) :
    Covers (w.process.store.actions (actionKey host actionId)) s.metadata.revision s.bundle ∧
      s.Consistent host := by
  have hkeys := injOn_actionKey hids hsha
  have hinv : ServiceOk host relay ids w.process ∧ WrittenOk host w := by
    apply hrun.keeps _ ⟨serviceOk_fresh, writtenOk_fresh⟩
    rintro s event t ⟨hservice, hwritten⟩ ⟨hwrites, hserved, hreads⟩ hstep
    obtain ⟨hsteps, hafter⟩ := steps_of_watched hstep
    exact ⟨hservice.step hkeys hwrites hserved hsteps, hwritten.step hservice.served
      hservice.covered hservice.orderly hkeys hreads hsteps hafter⟩
  exact ⟨hinv.1.covered i _ hreturned, hinv.2.calls i _ hreturned⟩

end

/-! ### Reads beside a webhook -/

/-- A check that `getAction` reads files that were written together. -/
def Event.isTogether (w : Watched) : Event → Bool
  | .advance i =>
    match w.process.calls[i]? with
    | some (.reading .get _ key (.bundle m _)) => w.written key = m.revision
    | _ => true
  | _ => true

theorem readsTogether_of_isTogether {w : Watched} {event : Event}
    (h : event.isTogether w = true) : event.ReadsTogether w := by
  cases event with
  | advance i =>
    intro actionId key m b hcall
    rw [Event.isTogether, hcall] at h
    exact of_decide_eq_true h
  | _ => trivial

/-- The sample action is recorded and read. -/
def readRun : List Event :=
  .start (.recordAction (sampleAction (jsonText "re_1"))) :: List.replicate 8 (.advance 0) ++
    .start (.getAction (js "a1")) :: List.replicate 3 (.advance 1)

/-- The action is read once more, and its webhook comes before the last file is read. -/
def overlappedRun : List Event :=
  .start (.getAction (js "a1")) :: List.replicate 2 (.advance 2) ++
    .start (.ingestStripeWebhook settledWebhook) :: List.replicate 12 (.advance 3) ++
    [.advance 2]

/-- Whether a call has returned a snapshot of the sample action. -/
def Phase.isSnapshot : Phase → Bool
  | .settled (.snapshot actionId _) => actionId = js "a1"
  | _ => false

/-- Whether a call has returned the summary of another bundle. -/
def Phase.isMixed : Phase → Bool
  | .settled (.snapshot _ s) =>
    match s.bundle, s.current.bundleId with
    | .obj bundle, some (.str id) => !isText (bundleId bundle) id
    | _, _ => false
  | _ => false

private theorem readRunFacts :
    (runChecked (Watched.step sampleHost sampleRelay)
      (fun w event ↦ (event.writesOnly (js "a1") && event.isServed) && event.isTogether w) .fresh
      readRun).any (fun w ↦ w.process.calls[1]?.any Phase.isSnapshot &&
        (runChecked (Process.step sampleHost sampleRelay)
          (fun _ event ↦ event.writesOnly (js "a1") && event.isServed) w.process
          overlappedRun).any fun p ↦ p.calls[2]?.any Phase.isMixed) = true := by
  decide +kernel

/-- The action that is read after it is recorded is one revision. -/
theorem reads_are_consistent_recorded :
    ∃ (w : Watched) (s : Snapshot),
      w.process.calls[1]? = some (.settled (.snapshot (js "a1") s)) ∧
      Covers (w.process.store.actions (actionKey sampleHost (js "a1"))) s.metadata.revision
        s.bundle ∧ s.Consistent sampleHost := by
  obtain ⟨w, hw, hfacts⟩ := (Option.any_eq_true _ _).mp readRunFacts
  rw [Bool.and_eq_true, Option.any_eq_true] at hfacts
  obtain ⟨⟨phase, hphase, hsnapshot⟩, -⟩ := hfacts
  unfold Phase.isSnapshot at hsnapshot
  split at hsnapshot
  · next actionId s =>
    obtain rfl : actionId = js "a1" := of_decide_eq_true hsnapshot
    have hgood (event : Event) (_ : event ∈ readRun) (w : Watched)
        (h : ((event.writesOnly (js "a1") && event.isServed) && event.isTogether w) = true) :
        event.Writes {js "a1"} ∧ event.Served ∧ event.ReadsTogether w := by
      rw [Bool.and_eq_true, Bool.and_eq_true] at h
      exact ⟨writes_of_writesOnly h.1.1, served_of_isServed h.1.2, readsTogether_of_isTogether h.2⟩
    exact ⟨w, s, hphase, reads_are_consistent sampleHost sampleRelay {js "a1"}
      (Set.injOn_singleton _ _) injOn_bytes_singleton w (runs_of_runChecked hgood hw) 1 (js "a1") s
      hphase⟩
  · cases hsnapshot

/-- A webhook that comes between the reads gives a summary of another bundle. -/
theorem reads_mixed_beside_webhook :
    ¬∀ p : Process, Runs (Process.step sampleHost sampleRelay)
        (fun _ event ↦ event.Writes {js "a1"} ∧ event.Served) (.fresh .empty) p →
      ∀ (i : Nat) (actionId : JsString) (s : Snapshot),
        p.calls[i]? = some (.settled (.snapshot actionId s)) →
          Covers (p.store.actions (actionKey sampleHost actionId)) s.metadata.revision s.bundle ∧
            s.Consistent sampleHost := by
  intro hclaim
  obtain ⟨w, hw, hfacts⟩ := (Option.any_eq_true _ _).mp readRunFacts
  rw [Bool.and_eq_true, Option.any_eq_true, Option.any_eq_true] at hfacts
  obtain ⟨-, p, hp, hmixed⟩ := hfacts
  obtain ⟨phase, hphase, hmixed⟩ := (Option.any_eq_true _ _).mp hmixed
  have hgood (event : Event) (h : (event.writesOnly (js "a1") && event.isServed) = true) :
      event.Writes {js "a1"} ∧ event.Served := by
    rw [Bool.and_eq_true] at h
    exact ⟨writes_of_writesOnly h.1, served_of_isServed h.2⟩
  have hbefore : Runs (Watched.step sampleHost sampleRelay)
      (fun _ event ↦ event.Writes {js "a1"} ∧ event.Served) .fresh w := by
    apply runs_of_runChecked (fun event _ w h ↦ ?_) hw
    rw [Bool.and_eq_true] at h
    exact hgood event h.1
  have hrun := (runs_of_watched hbefore).trans
    (runs_of_runChecked (fun event _ _ ↦ hgood event) hp)
  unfold Phase.isMixed at hmixed
  split at hmixed
  · next actionId s =>
    obtain ⟨-, bundle, verification, evaluation, hbundle, -, -, hid, -⟩ :=
      hclaim p hrun 2 actionId s hphase
    split at hmixed
    · next bundle' id hbundle' hid' =>
      obtain rfl : bundle = bundle' := Json.obj.inj (hbundle.symm.trans hbundle')
      rw [← hid, hid', isText_iff.mpr rfl] at hmixed
      cases hmixed
    · cases hmixed
  · cases hmixed

end TimeProofs.Relay
