import TimeProofs.Relay.Prepared
import TimeProofs.Relay.Snapshots

/-!
# What the service writes

In a run of the service every call that writes an action has prepared what it writes: the bundle
of a new action, or one that extends a revision that the call has read.
-/

namespace TimeProofs.Relay

open TimeProofs.Base TimeProofs.Json TimeProofs.Core TimeProofs.VerdictEngine
  TimeProofs.StripeConnector

/-- A call of the service; the store is not called past it. -/
def Event.Served : Event → Prop
  | .start (.createAction _) => False
  | .start (.appendRevision _) => False
  | _ => True

/-- A check of the same. -/
def Event.isServed : Event → Bool
  | .start (.createAction _) => false
  | .start (.appendRevision _) => false
  | _ => true

theorem served_of_isServed {event : Event} (h : event.isServed = true) : event.Served := by
  cases event with
  | start request => cases request <;> trivial
  | _ => trivial

/-- A webhook passed its checks. -/
def Delivery.Checked (host : Host) (relay : RelayService) (delivery : Delivery) : Prop :=
  ∃ parts, Received host relay delivery.request delivery.received parts

/-- What a call writes is what the service has prepared. -/
inductive Writer.Made (host : Host) (relay : RelayService) : Writer → Prop where
  | create {a : NewAction} {generatedAt : Option JsString} {request : ActionRequest}
      {parts : ActionParts} (hprepared : PreparedAction host relay request a parts) :
      Writer.Made host relay (.create a generatedAt)
  | append {r : NewRevision} {delivery : Delivery} {previous : Snapshot} {parts : RevisionParts}
      (hchecked : delivery.Checked host relay)
      (hruleset : previous.metadata.ruleset = refundRuleset)
      (hprepared :
        PreparedRevision host relay delivery.request delivery.received previous r parts) :
      Writer.Made host relay (.append r (some (delivery, previous)))

/-- The metadata that `getAction` has read names the refund ruleset. -/
def Progress.Ruled : Progress → Prop
  | .start => True
  | .metadata m => m.ruleset = refundRuleset
  | .bundle m _ => m.ruleset = refundRuleset

/-- What a call of the service is about to write, and the webhook that it serves. -/
def Phase.Made (host : Host) (relay : RelayService) : Phase → Prop
  | .queueing (.store writer) => writer.Made host relay
  | .waiting (.store writer) _ => writer.Made host relay
  | .reading (.webhook delivery) _ _ progress => delivery.Checked host relay ∧ progress.Ruled
  | .reading (.append r source _) _ _ progress =>
    (Writer.append r source).Made host relay ∧ progress.Ruled
  | .reading _ _ _ progress => progress.Ruled
  | .writing writer _ _ _ _ => writer.Made host relay
  | .finding delivery => delivery.Checked host relay
  | .settled (.delivered delivery _ _) => delivery.Checked host relay
  | _ => True

/-- A process of the service. -/
structure ServedOk (host : Host) (relay : RelayService) (p : Process) : Prop where
  calls : ∀ (i : Nat) phase, p.calls[i]? = some phase → phase.Made host relay
  ruled : ∀ key metadata, (p.store.actions key).metadata = some metadata →
    metadata.ruleset = refundRuleset
  plain : ∀ key n bundle, revisionOf (p.store.actions key) n = some bundle → Plain bundle

section

variable {host : Host} {relay : RelayService} {store : Store} {locks : Locks JsString}

theorem Begins.made {request : CallRequest} {phase : Phase} (hserved : (Event.start request).Served)
    (h : Begins host relay request phase) : phase.Made host relay := by
  cases h with
  | recordAction hprepared =>
    obtain ⟨parts, hprepared⟩ := prepareAction_prepared hprepared
    exact .create hprepared
  | ingestStripeWebhook hreceived => exact receiveWebhook_received hreceived
  | createAction => exact hserved.elim
  | appendRevision => exact hserved.elim
  | _ => trivial

theorem made_linkResult (creating : Option Creating) :
    (Phase.settled (linkResult host creating)).Made host relay := by
  rcases linkResult_cases host creating with heq | ⟨_, heq⟩ | ⟨_, heq⟩ | ⟨_, heq⟩ <;>
    (rw [heq]; trivial)

/-- What answers a webhook names it. -/
theorem made_appendResult {r : NewRevision} {source : Option (Delivery × Snapshot)}
    (h : (Writer.append r source).Made host relay) (answer : Appended) :
    (Phase.settled (appendResult host r source answer)).Made host relay := by
  cases h with
  | @append r delivery previous parts hchecked hruleset hprepared =>
    rcases appendResult_cases host r (some (delivery, previous)) answer with
      ⟨hnone, -⟩ | ⟨_, _, _, hsource, heq⟩ | ⟨_, heq⟩
    · cases hnone
    · cases hsource
      rw [heq]
      exact hchecked
    · rw [heq]
      trivial

theorem made_of_advances {phase : Phase} {stepped : Stepped} (h : phase.Made host relay)
    (hruled : ∀ key metadata, (store.actions key).metadata = some metadata →
      metadata.ruleset = refundRuleset)
    (hadvance : Advances host relay store locks phase stepped) :
    stepped.phase.Made host relay := by
  cases hadvance with
  | @enqueue job => cases job <;> exact h
  | enterCreate _ _ _ => exact h
  | enterAppend _ _ => exact ⟨h, trivial⟩
  | @readMetadata reader _ key metadata hmetadata =>
    cases reader with
    | webhook delivery => exact ⟨h.1, hruled key metadata hmetadata⟩
    | append r source ticket => exact ⟨h.1, hruled key metadata hmetadata⟩
    | _ => exact hruled key metadata hmetadata
  | @readBundle reader _ _ _ _ _ => cases reader <;> exact h
  | readDuplicate _ _ => exact h.1
  | readPrepared _ _ hprepared =>
    obtain ⟨-, parts, hprepared⟩ := prepareRevision_prepared hprepared
    exact .append h.1 h.2 hprepared
  | readAppended _ _ => exact made_appendResult h.1 _
  | readFresh _ _ => exact h.1
  | writeBundle => exact h
  | writeCurrent => exact h
  | commitCreate hresult =>
    rcases hresult with ⟨-, rfl⟩ | ⟨-, rfl⟩
    · exact made_linkResult (some ⟨_, _, 0⟩)
    · trivial
  | commitAppend => exact made_appendResult h _
  | writeLink => exact made_linkResult _
  | findAction _ _ => exact ⟨h, trivial⟩
  | _ => trivial

end

section

variable {host : Host} {relay : RelayService} {ids : Set JsString} {p q : Process} {event : Event}

theorem servedOk_fresh : ServedOk host relay (.fresh .empty) where
  calls := fun i phase h ↦ by simp [Process.fresh] at h
  ruled := nofun
  plain := nofun

/-- A call that writes names the ruleset of the metadata before. -/
theorem Writer.Made.ruleset {writer : Writer} (h : writer.Made host relay) {files : ActionFiles}
    {metadata : Metadata} (hextends : writer.Extends files metadata)
    (hruled : ∀ m, files.metadata = some m → m.ruleset = refundRuleset) :
    metadata.ruleset = refundRuleset := by
  cases h with
  | create hprepared =>
    obtain ⟨-, rfl⟩ := hextends
    exact hprepared.ruleset
  | append _ _ _ =>
    obtain ⟨existing, hexisting, -, rfl⟩ := hextends
    exact hruled existing hexisting

/-- Every event of the service keeps a process of the service. -/
theorem ServedOk.step (h : ServedOk host relay p) (horderly : Orderly host ids p)
    (hserved : event.Served) (hstep : Steps host relay p event q) : ServedOk host relay q := by
  constructor
  · intro i phase hi
    cases hstep.origin hi with
    | begun hbegins _ => exact hbegins.made hserved
    | stepped hcall hadvance _ => exact made_of_advances (h.calls i _ hcall) h.ruled hadvance
    | kept _ hcall => exact h.calls i phase hcall
    | @crashed _ old hcall _ =>
      cases old with
      | settled result => exact h.calls i _ hcall
      | _ => trivial
  · cases hstep with
    | start => exact h.ruled
    | crash => exact h.ruled
    | advance hcall hadvance =>
      cases storeStep_of_advances hadvance with
      | same _ hactions => exact hactions ▸ h.ruled
      | @write writer ticket written metadata next hphase hactions =>
        subst hphase
        intro key m hm
        rw [hactions] at hm
        by_cases hkey : key = written
        · subst hkey
          rw [actions_update_self] at hm
          cases next with
          | metadata =>
            have hextends := (horderly.calls _ _ hcall).2.1
            rw [← Option.some.inj hm]
            show metadata.ruleset = refundRuleset
            exact (h.calls _ _ hcall).ruleset hextends (h.ruled key)
          | _ => exact h.ruled key m hm
        · rw [actions_update_ne hkey] at hm
          exact h.ruled key m hm
  · cases hstep with
    | start => exact h.plain
    | crash => exact h.plain
    | advance hcall hadvance =>
      cases storeStep_of_advances hadvance with
      | same _ hactions => exact hactions ▸ h.plain
      | @write writer ticket written metadata next hphase hactions =>
        intro key n bundle hbundle
        rw [hactions] at hbundle
        by_cases hkey : key = written
        · subst hkey
          rw [actions_update_self, revisionOf_afterWrite] at hbundle
          split at hbundle
          · rw [← Option.some.inj hbundle]
            exact plain_clone _
          · exact h.plain key n bundle hbundle
        · rw [actions_update_ne hkey] at hbundle
          exact h.plain key n bundle hbundle

/-- What a call of the service writes is stored as it is. -/
theorem Writer.Made.plain {writer : Writer} (h : writer.Made host relay) :
    Plain (.obj writer.bundle) := by
  cases h with
  | create hprepared => exact hprepared.plain
  | append _ _ hprepared => exact hprepared.plain

/-- The summary that a call of the service writes is that of its bundle. -/
theorem Writer.Made.summary {writer : Writer} (h : writer.Made host relay) :
    ∃ generatedAt, currentSummary host writer.bundle refundRuleset generatedAt =
      .ok writer.current := by
  cases h with
  | create hprepared => exact ⟨_, hprepared.current⟩
  | append _ hruleset hprepared => exact ⟨_, hruleset ▸ hprepared.current⟩

/-- What holds of every process of the service. -/
structure ServiceOk (host : Host) (relay : RelayService) (ids : Set JsString) (p : Process) :
    Prop where
  orderly : Orderly host ids p
  covered : CoveredOk host p
  served : ServedOk host relay p

theorem serviceOk_fresh : ServiceOk host relay ids (.fresh .empty) :=
  ⟨orderly_fresh, coveredOk_fresh, servedOk_fresh⟩

theorem ServiceOk.step (h : ServiceOk host relay ids p) (hkeys : Set.InjOn (actionKey host) ids)
    (hwrites : event.Writes ids) (hserved : event.Served) (hstep : Steps host relay p event q) :
    ServiceOk host relay ids q where
  orderly := h.orderly.step hkeys hwrites hstep
  covered := h.covered.step h.orderly hstep
  served := h.served.step h.orderly hserved hstep

end

end TimeProofs.Relay
