import TimeProofs.Relay.Orderly

/-!
# Webhooks take effect at most once

Across every run, the metadata of an action remembers each upstream event once and counts one
revision for each, and no two deliveries of one event to one action both append a revision. The
check outside the lock is of no use for this: the one inside it decides.
-/

namespace TimeProofs.Relay

open TimeProofs.Base TimeProofs.Json TimeProofs.Core TimeProofs.VerdictEngine
  TimeProofs.StripeConnector

/-- The upstream events of a run have ids: no webhook carries the empty id, and no call of the
store appends a revision without one. -/
def Event.Identified (host : Host) (relay : RelayService) : Event → Prop
  | .start (.ingestStripeWebhook w) =>
    ∀ received, receiveWebhook host relay w = .ok received → received.eventId ≠ some []
  | .start (.appendRevision r) => r.remembered.isSome = true
  | _ => True

/-- A check of the same. -/
def Event.isIdentified (host : Host) (relay : RelayService) : Event → Bool
  | .start (.ingestStripeWebhook w) =>
    match receiveWebhook host relay w with
    | .ok received => received.eventId ≠ some []
    | .error _ => true
  | .start (.appendRevision r) => r.remembered.isSome
  | _ => true

theorem identified_of_isIdentified {host : Host} {relay : RelayService} {event : Event}
    (h : event.isIdentified host relay = true) : event.Identified host relay := by
  cases event with
  | start request =>
    cases request with
    | ingestStripeWebhook w =>
      intro received hreceived
      rw [Event.isIdentified, hreceived] at h
      exact of_decide_eq_true h
    | appendRevision r => exact h
    | _ => trivial
  | _ => trivial

/-- An appended revision carries an event id, that of its webhook. -/
def Writer.Identified : Writer → Prop
  | .create _ _ => True
  | .append r source => r.remembered.isSome = true ∧
      ∀ delivery previous, source = some (delivery, previous) →
        r.remembered = delivery.received.eventId

def Phase.Identified : Phase → Prop
  | .queueing (.store writer) => writer.Identified
  | .waiting (.store writer) _ => writer.Identified
  | .reading (.webhook delivery) _ _ _ => delivery.received.eventId ≠ some []
  | .reading (.append r source _) _ _ _ => (Writer.append r source).Identified
  | .writing writer _ _ _ _ => writer.Identified
  | .finding delivery => delivery.received.eventId ≠ some []
  | _ => True

section

variable {host : Host} {relay : RelayService} {store : Store} {locks : Locks JsString}

theorem Begins.identified {request : CallRequest} {phase : Phase}
    (hidentified : (Event.start request).Identified host relay)
    (h : Begins host relay request phase) : phase.Identified := by
  cases h with
  | ingestStripeWebhook hreceived => exact hidentified _ hreceived
  | appendRevision =>
    refine ⟨hidentified, fun delivery previous heq ↦ ?_⟩
    cases heq
  | _ => trivial

/-- A webhook with an event id prepares a revision with it. -/
theorem identified_of_prepared {delivery : Delivery} {actionId : JsString} {previous : Snapshot}
    {r : NewRevision} (hid : delivery.received.eventId ≠ some [])
    (h : prepareRevision host relay delivery.request delivery.received actionId previous = .ok r) :
    (Writer.append r (some (delivery, previous))).Identified := by
  obtain ⟨-, hsome, hupstream⟩ := prepareRevision_actionId h
  obtain ⟨eventId, heventId⟩ := Option.isSome_iff_exists.mp hsome
  have hne : eventId ≠ [] := fun hempty ↦ hid (hempty ▸ heventId)
  have hremembered : r.remembered = some eventId := by
    rw [NewRevision.remembered, hupstream, heventId]
    exact if_neg hne
  constructor
  · rw [hremembered]
    rfl
  · intro delivery' previous' heq
    cases heq
    rw [hremembered, heventId]

theorem identified_of_advances {phase : Phase} {stepped : Stepped} (h : phase.Identified)
    (hadvance : Advances host relay store locks phase stepped) : stepped.phase.Identified := by
  cases hadvance with
  | @enqueue job => cases job <;> exact h
  | enterCreate _ _ _ => exact h
  | enterAppend _ _ => exact h
  | @readMetadata reader _ _ _ _ => cases reader <;> exact h
  | @readBundle reader _ _ _ _ _ => cases reader <;> exact h
  | readPrepared _ _ hprepared => exact identified_of_prepared h hprepared
  | readFresh _ _ => exact h
  | writeBundle => exact h
  | writeCurrent => exact h
  | findAction _ _ => exact h
  | _ => trivial

end

/-- A delivery that has resolved without being a duplicate, with its action. -/
inductive TookEffect : Phase → Delivery → JsString → Prop where
  | appended {delivery : Delivery} {actionId : JsString} {stored : StoredRevision}
      {packet : OutcomePacket} :
      TookEffect (.settled (.delivered delivery actionId (.appended (.revision stored) packet)))
        delivery actionId

/-- The upstream events that the metadata of an action remembers. -/
def seenEvents (files : ActionFiles) : List JsString :=
  (files.metadata.map Metadata.seenUpstreamEventIds).getD []

/-- The metadata of an action remembers each event once, with one revision for each. -/
def SeenOk (files : ActionFiles) : Prop :=
  (seenEvents files).Nodup ∧
    ∀ metadata, files.metadata = some metadata →
      metadata.revision = 1 + metadata.seenUpstreamEventIds.length

section

variable {host : Host} {relay : RelayService} {store : Store} {locks : Locks JsString}

/-- A delivery takes effect when its call writes the metadata. -/
theorem writing_of_tookEffect {phase : Phase} {stepped : Stepped} {delivery : Delivery}
    {actionId : JsString} (hadvance : Advances host relay store locks phase stepped)
    (h : TookEffect stepped.phase delivery actionId) :
    ∃ r previous ticket key metadata,
      phase = .writing (.append r (some (delivery, previous))) ticket key metadata .metadata ∧
        r.actionId = actionId := by
  have hlink (creating : Option Creating) :
      ¬TookEffect (.settled (linkResult host creating)) delivery actionId := by
    intro heffect
    rcases linkResult_cases host creating with heq | ⟨_, heq⟩ | ⟨_, heq⟩ | ⟨_, heq⟩ <;>
      (rw [heq] at heffect; cases heffect)
  cases hadvance with
  | @readAppended r source ticket _ _ _ _ current _ _ =>
    dsimp only at h
    rcases appendResult_cases host r source _ with ⟨-, heq⟩ | ⟨_, _, _, -, heq⟩ | ⟨_, heq⟩ <;>
      (rw [heq] at h; cases h)
  | commitCreate hresult =>
    rcases hresult with ⟨-, rfl⟩ | ⟨-, rfl⟩
    · exact absurd h (hlink (some ⟨_, _, 0⟩))
    · cases h
  | writeLink => exact absurd h (hlink _)
  | @commitAppend r source ticket key metadata =>
    dsimp only at h
    rcases appendResult_cases host r source _ with
      ⟨-, heq⟩ | ⟨_, previous, _, hsource, heq⟩ | ⟨_, heq⟩
    · rw [heq] at h
      cases h
    · rw [heq] at h
      cases h
      exact ⟨r, previous, ticket, key, metadata, hsource ▸ rfl, rfl⟩
    · rw [heq] at h
      cases h
  | _ => cases h

end

section

variable {files : ActionFiles} {writer : Writer} {metadata : Metadata}

/-- A call that writes keeps the events that the metadata remembers. -/
theorem seenEvents_afterWrite (h : writer.Extends files metadata) (next : RevisionPart) :
    seenEvents files ⊆ seenEvents (files.afterWrite writer metadata next) := by
  cases next with
  | bundle => exact List.Subset.refl _
  | current => exact List.Subset.refl _
  | metadata =>
    cases writer with
    | create a generatedAt =>
      rw [seenEvents, h.1]
      exact List.nil_subset _
    | append r source =>
      obtain ⟨existing, hexisting, -, rfl⟩ := h
      rw [seenEvents, hexisting]
      exact List.subset_append_left _ _

/-- The event of a revision, when its metadata is written. -/
theorem mem_seenEvents_afterWrite {r : NewRevision} {source : Option (Delivery × Snapshot)}
    {eventId : JsString} (h : (Writer.append r source).Extends files metadata)
    (hid : r.remembered = some eventId) :
    eventId ∉ seenEvents files ∧
      eventId ∈ seenEvents (files.afterWrite (.append r source) metadata .metadata) := by
  obtain ⟨existing, hexisting, hnew, rfl⟩ := h
  constructor
  · rw [NewRevision.isDuplicate, hid] at hnew
    rw [seenEvents, hexisting]
    exact of_decide_eq_false hnew
  · show eventId ∈ existing.seenUpstreamEventIds ++ r.remembered.toList
    rw [hid]
    exact List.mem_append_right _ (List.mem_singleton_self _)

/-- A call that writes keeps the metadata right. -/
theorem SeenOk.afterWrite (hseen : SeenOk files) (hidentified : writer.Identified)
    (h : writer.Extends files metadata) (next : RevisionPart) :
    SeenOk (files.afterWrite writer metadata next) := by
  cases next with
  | bundle => exact hseen
  | current => exact hseen
  | metadata =>
    cases writer with
    | create a generatedAt =>
      obtain ⟨-, rfl⟩ := h
      refine ⟨List.nodup_nil, fun m hm ↦ ?_⟩
      rw [← Option.some.inj hm]
      rfl
    | append r source =>
      obtain ⟨eventId, hid⟩ := Option.isSome_iff_exists.mp hidentified.1
      have hfresh := (mem_seenEvents_afterWrite h hid).1
      obtain ⟨existing, hexisting, -, rfl⟩ := h
      have hadded : (r.metadata existing).seenUpstreamEventIds =
          existing.seenUpstreamEventIds ++ [eventId] := by
        rw [NewRevision.metadata, hid]
        rfl
      have hold : seenEvents files = existing.seenUpstreamEventIds := by
        rw [seenEvents, hexisting]
        rfl
      rw [hold] at hfresh
      have hnodup : existing.seenUpstreamEventIds.Nodup := hold ▸ hseen.1
      constructor
      · show (r.metadata existing).seenUpstreamEventIds.Nodup
        rw [hadded]
        apply List.nodup_append'.mpr
        exact ⟨hnodup, List.nodup_singleton _, List.disjoint_singleton.mpr hfresh⟩
      · intro m hm
        rw [← Option.some.inj hm]
        show existing.revision + 1 = 1 + (r.metadata existing).seenUpstreamEventIds.length
        rw [hadded, hseen.2 existing hexisting, List.length_append, List.length_singleton]
        omega

end

/-- Every event that a process remembers took effect once. -/
structure OnceOk (host : Host) (p : Process) : Prop where
  identified : ∀ (i : Nat) phase, p.calls[i]? = some phase → phase.Identified
  seen : ∀ key, SeenOk (p.store.actions key)
  remembered : ∀ (i : Nat) phase delivery actionId, p.calls[i]? = some phase →
    TookEffect phase delivery actionId → ∃ eventId, delivery.received.eventId = some eventId ∧
      eventId ∈ seenEvents (p.store.actions (actionKey host actionId))
  once : ∀ (i j : Nat) phase phase' delivery delivery' actionId, p.calls[i]? = some phase →
    p.calls[j]? = some phase' → TookEffect phase delivery actionId →
    TookEffect phase' delivery' actionId →
    delivery.received.eventId = delivery'.received.eventId → i = j

section

variable {host : Host} {relay : RelayService} {ids : Set JsString} {p q : Process} {event : Event}

theorem onceOk_fresh : OnceOk host (.fresh .empty) where
  identified := fun i phase h ↦ by simp [Process.fresh] at h
  seen := fun key ↦ ⟨List.nodup_nil, nofun⟩
  remembered := fun i phase _ _ h ↦ by simp [Process.fresh] at h
  once := fun i j phase _ _ _ _ h ↦ by simp [Process.fresh] at h

theorem tookEffect_crash {phase : Phase} {delivery : Delivery} {actionId : JsString}
    (h : TookEffect phase.crash delivery actionId) : TookEffect phase delivery actionId := by
  cases phase with
  | settled result => exact h
  | _ => cases h

/-- What a step of a call does to the events that an action remembers. -/
private theorem seen_of_advance (h : Orderly host ids p) {i : Nat} {phase : Phase}
    {stepped : Stepped} (hcall : p.calls[i]? = some phase) (hidentified : phase.Identified)
    (hseen : ∀ key, SeenOk (p.store.actions key))
    (hadvance : Advances host relay p.store p.locks phase stepped) (key : JsString) :
    SeenOk (stepped.store.actions key) ∧
      seenEvents (p.store.actions key) ⊆ seenEvents (stepped.store.actions key) := by
  cases storeStep_of_advances hadvance with
  | same _ hactions =>
    rw [hactions]
    exact ⟨hseen key, List.Subset.refl _⟩
  | @write writer ticket written metadata next hphase hactions =>
    subst hphase
    have hextends := (h.calls i _ hcall).2.1
    rw [hactions]
    by_cases hkey : key = written
    · subst hkey
      rw [actions_update_self]
      exact ⟨(hseen key).afterWrite hidentified hextends next, seenEvents_afterWrite hextends next⟩
    · rw [actions_update_ne hkey]
      exact ⟨hseen key, List.Subset.refl _⟩

/-- An effect is new when its call takes it. -/
private theorem effect_of_advance (h : Orderly host ids p) {i : Nat} {phase : Phase}
    {stepped : Stepped} (hcall : p.calls[i]? = some phase) (hidentified : phase.Identified)
    (hadvance : Advances host relay p.store p.locks phase stepped) {delivery : Delivery}
    {actionId : JsString} (heffect : TookEffect stepped.phase delivery actionId) :
    ∃ eventId, delivery.received.eventId = some eventId ∧
      eventId ∉ seenEvents (p.store.actions (actionKey host actionId)) ∧
      eventId ∈ seenEvents (stepped.store.actions (actionKey host actionId)) := by
  obtain ⟨r, previous, ticket, key, metadata, rfl, rfl⟩ := writing_of_tookEffect hadvance heffect
  obtain ⟨hkey, hextends, -⟩ := h.calls i _ hcall
  obtain ⟨eventId, hid⟩ := Option.isSome_iff_exists.mp hidentified.1
  have heventId : delivery.received.eventId = some eventId :=
    (hidentified.2 delivery previous rfl).symm.trans hid
  have hkey' : actionKey host r.actionId = key := (paths_eq hkey).symm
  obtain ⟨hfresh, hadded⟩ := mem_seenEvents_afterWrite hextends hid
  refine ⟨eventId, heventId, hkey'.symm ▸ hfresh, ?_⟩
  cases hadvance
  rw [hkey', Store.writeMetadata, actions_update_self]
  exact hadded

/-- Every event keeps that the upstream events took effect once. -/
theorem OnceOk.step (h : OnceOk host p) (horderly : Orderly host ids p)
    (hidentified : event.Identified host relay) (hstep : Steps host relay p event q) :
    OnceOk host q := by
  have hbegins {request : CallRequest} {delivery : Delivery} {actionId : JsString} :
      ¬TookEffect (begin host relay request) delivery actionId := by
    have hbegins := begins host relay request
    intro heffect
    generalize begin host relay request = phase at hbegins heffect
    cases hbegins <;> cases heffect
  cases hstep with
  | @start request =>
    refine ⟨?_, h.seen, ?_, ?_⟩
    · intro i phase hi
      rcases getElem?_append_eq_some hi with ⟨-, rfl⟩ | hi
      · exact (begins host relay _).identified hidentified
      · exact h.identified i phase hi
    · intro i phase delivery actionId hi heffect
      rcases getElem?_append_eq_some hi with ⟨-, rfl⟩ | hi
      · exact absurd heffect hbegins
      · exact h.remembered i phase delivery actionId hi heffect
    · intro i j phase phase' delivery delivery' actionId hi hj heffect heffect' hid
      rcases getElem?_append_eq_some hi with ⟨-, rfl⟩ | hi
      · exact absurd heffect hbegins
      rcases getElem?_append_eq_some hj with ⟨-, rfl⟩ | hj
      · exact absurd heffect' hbegins
      exact h.once i j phase phase' delivery delivery' actionId hi hj heffect heffect' hid
  | @advance k phase stepped hcall hadvance =>
    have hphase := h.identified k phase hcall
    have hseen := seen_of_advance horderly hcall hphase h.seen hadvance
    -- the effect of another call is remembered, one of this step is not yet
    have hnew {j : Nat} {other : Phase} {delivery delivery' : Delivery} {actionId : JsString}
        (hj : p.calls[j]? = some other) (heffect : TookEffect stepped.phase delivery actionId)
        (heffect' : TookEffect other delivery' actionId) :
        delivery.received.eventId ≠ delivery'.received.eventId := by
      intro heq
      obtain ⟨eventId, hid, hfresh, -⟩ := effect_of_advance horderly hcall hphase hadvance heffect
      obtain ⟨eventId', hid', hold⟩ := h.remembered j other delivery' actionId hj heffect'
      rw [hid, hid'] at heq
      cases heq
      exact hfresh hold
    refine ⟨?_, fun key ↦ (hseen key).1, ?_, ?_⟩
    · intro i other hi
      rcases getElem?_set_eq_some hi with ⟨-, rfl⟩ | ⟨-, hi⟩
      · exact identified_of_advances hphase hadvance
      · exact h.identified i other hi
    · intro i other delivery actionId hi heffect
      rcases getElem?_set_eq_some hi with ⟨-, rfl⟩ | ⟨-, hi⟩
      · obtain ⟨eventId, hid, -, hadded⟩ :=
          effect_of_advance horderly hcall hphase hadvance heffect
        exact ⟨eventId, hid, hadded⟩
      · obtain ⟨eventId, hid, hold⟩ := h.remembered i other delivery actionId hi heffect
        exact ⟨eventId, hid, (hseen _).2 hold⟩
    · intro i j other other' delivery delivery' actionId hi hj heffect heffect' hid
      rcases getElem?_set_eq_some hi with ⟨rfl, rfl⟩ | ⟨-, hi'⟩
      · rcases getElem?_set_eq_some hj with ⟨rfl, -⟩ | ⟨-, hj'⟩
        · rfl
        · exact absurd hid (hnew hj' heffect heffect')
      · rcases getElem?_set_eq_some hj with ⟨rfl, rfl⟩ | ⟨-, hj'⟩
        · exact absurd hid.symm (hnew hi' heffect' heffect)
        · exact h.once i j other other' delivery delivery' actionId hi' hj' heffect heffect' hid
  | crash =>
    have hcall {i : Nat} {phase : Phase} (hi : (p.calls.map Phase.crash)[i]? = some phase) :
        ∃ old, p.calls[i]? = some old ∧ phase = old.crash := by
      rw [List.getElem?_map, Option.map_eq_some_iff] at hi
      obtain ⟨old, hold, rfl⟩ := hi
      exact ⟨old, hold, rfl⟩
    refine ⟨?_, h.seen, ?_, ?_⟩
    · intro i phase hi
      obtain ⟨old, -, rfl⟩ := hcall hi
      cases old <;> trivial
    · intro i phase delivery actionId hi heffect
      obtain ⟨old, hold, rfl⟩ := hcall hi
      exact h.remembered i old delivery actionId hold (tookEffect_crash heffect)
    · intro i j phase phase' delivery delivery' actionId hi hj heffect heffect' hid
      obtain ⟨old, hold, rfl⟩ := hcall hi
      obtain ⟨old', hold', rfl⟩ := hcall hj
      exact h.once i j old old' delivery delivery' actionId hold hold'
        (tookEffect_crash heffect) (tookEffect_crash heffect') hid

/-- In every run whose upstream events have ids, the metadata of each action remembers each event
once and counts one revision for each, and of all deliveries of one event to one action at most
one resolves without being a duplicate. -/
theorem webhooks_take_effect_once (host : Host) (relay : RelayService) (ids : Set JsString)
    (hids : Set.InjOn utf8 ids) (hsha : Set.InjOn host.sha256 (utf8 '' ids))
    (p : Process)
    (hrun : Runs (Process.step host relay)
      (fun _ event ↦ event.Writes ids ∧ event.Identified host relay) (.fresh .empty) p) :
    (∀ key metadata, (p.store.actions key).metadata = some metadata →
      metadata.seenUpstreamEventIds.Nodup ∧
        metadata.revision = 1 + metadata.seenUpstreamEventIds.length) ∧
    ∀ (i j : Nat) (phase phase' : Phase) (delivery delivery' : Delivery) (actionId : JsString),
      p.calls[i]? = some phase → p.calls[j]? = some phase' →
      TookEffect phase delivery actionId → TookEffect phase' delivery' actionId →
      delivery.received.eventId = delivery'.received.eventId → i = j := by
  have hkeys := injOn_actionKey hids hsha
  have hinv : Orderly host ids p ∧ OnceOk host p := by
    apply hrun.keeps _ ⟨orderly_fresh, onceOk_fresh⟩
    rintro s event t ⟨horderly, honce⟩ ⟨hwrites, hidentified⟩ hstep
    have hsteps := steps_of_step hstep
    exact ⟨horderly.step hkeys hwrites hsteps, honce.step horderly hidentified hsteps⟩
  constructor
  · intro key metadata hmetadata
    obtain ⟨hnodup, hcount⟩ := hinv.2.seen key
    rw [seenEvents, hmetadata] at hnodup
    exact ⟨hnodup, hcount metadata hmetadata⟩
  · exact hinv.2.once

end

/-! ### A redelivered webhook -/

/-- A webhook with its header, handled at a time. -/
def sampleWebhook (body header : String) (now : Int) : WebhookRequest where
  rawBody := .text (js body)
  signatureHeader := some (js header)
  nowAtVerification := some now
  nowAtRecording := some now
  nowAtRevision := some now
  generatedAt := js "2026-07-23T18:01:00.000Z"

/-- The refund has succeeded. -/
def settledWebhook : WebhookRequest :=
  sampleWebhook ("\x7b\"id\":\"evt_1\",\"type\":\"refund.updated\",\"created\":1784829660," ++
      "\"data\":\x7b\"object\":\x7b\"object\":\"refund\",\"id\":\"re_1\"," ++
      "\"status\":\"succeeded\"\x7d\x7d\x7d")
    "t=1784829661,v1=c2409f713fb121385f43a9dc547e6dedbcf1a638b672743748b1f90c321c5949"
    1784829662000

/-- The sample action is recorded and its webhook comes twice. -/
def redeliveredRun : List Event :=
  .start (.recordAction (sampleAction (jsonText "re_1"))) :: List.replicate 8 (.advance 0) ++
    .start (.ingestStripeWebhook settledWebhook) :: List.replicate 12 (.advance 1) ++
    .start (.ingestStripeWebhook settledWebhook) :: List.replicate 4 (.advance 2)

/-- Whether a call has taken effect on the sample action. -/
def Phase.tookEffect : Phase → Bool
  | .settled (.delivered _ actionId (.appended (.revision _) _)) => actionId = js "a1"
  | _ => false

theorem tookEffect_iff {phase : Phase} :
    phase.tookEffect = true ↔ ∃ delivery, TookEffect phase delivery (js "a1") := by
  constructor
  · intro h
    unfold Phase.tookEffect at h
    split at h
    · next delivery actionId stored packet =>
      rw [of_decide_eq_true h]
      exact ⟨delivery, .appended⟩
    · cases h
  · rintro ⟨delivery, ⟨⟩⟩
    rfl

private theorem redeliveredRunFacts :
    (runChecked (Process.step sampleHost sampleRelay)
      (fun _ event ↦ event.writesOnly (js "a1") && event.isIdentified sampleHost sampleRelay)
      (.fresh .empty) redeliveredRun).any (fun p ↦
        (p.calls[1]?.any Phase.tookEffect && p.calls[2]?.any fun phase ↦ !phase.isRunning) &&
          (p.store.actions (actionKey sampleHost (js "a1"))).metadata.any
            (·.seenUpstreamEventIds = [js "evt_1"])) = true := by
  decide +kernel

/-- Of the two deliveries the first one takes effect, and no other. -/
theorem webhooks_take_effect_once_redelivered :
    ∃ (p : Process) (metadata : Metadata) (first again : Phase) (delivery : Delivery),
      (p.store.actions (actionKey sampleHost (js "a1"))).metadata = some metadata ∧
      metadata.seenUpstreamEventIds = [js "evt_1"] ∧
      (metadata.seenUpstreamEventIds.Nodup ∧
        metadata.revision = 1 + metadata.seenUpstreamEventIds.length) ∧
      p.calls[1]? = some first ∧ p.calls[2]? = some again ∧ again.isRunning = false ∧
      TookEffect first delivery (js "a1") ∧
      ∀ (j : Nat) (phase : Phase) (delivery' : Delivery), p.calls[j]? = some phase →
        TookEffect phase delivery' (js "a1") →
        delivery.received.eventId = delivery'.received.eventId → 1 = j := by
  obtain ⟨p, hp, hfacts⟩ := (Option.any_eq_true _ _).mp redeliveredRunFacts
  rw [Bool.and_eq_true, Bool.and_eq_true, Option.any_eq_true, Option.any_eq_true,
    Option.any_eq_true] at hfacts
  obtain ⟨⟨⟨first, hfirst, heffect⟩, again, hagain, hended⟩, metadata, hmetadata, hseen⟩ := hfacts
  obtain ⟨delivery, heffect⟩ := tookEffect_iff.mp heffect
  have hgood (event : Event) (_ : event ∈ redeliveredRun) (s : Process)
      (h : (event.writesOnly (js "a1") && event.isIdentified sampleHost sampleRelay) = true) :
      event.Writes {js "a1"} ∧ event.Identified sampleHost sampleRelay := by
    rw [Bool.and_eq_true] at h
    exact ⟨writes_of_writesOnly h.1, identified_of_isIdentified h.2⟩
  obtain ⟨hcounted, honce⟩ := webhooks_take_effect_once sampleHost sampleRelay {js "a1"}
    (Set.injOn_singleton _ _) injOn_bytes_singleton p (runs_of_runChecked hgood hp)
  refine ⟨p, metadata, first, again, delivery, hmetadata, of_decide_eq_true hseen,
    hcounted _ metadata hmetadata, hfirst, hagain, ?_, heffect, ?_⟩
  · rwa [Bool.not_eq_true'] at hended
  · intro j phase delivery' hj heffect' hid
    exact honce 1 j first phase delivery delivery' (js "a1") hfirst hj heffect heffect' hid

end TimeProofs.Relay
