import TimeProofs.Relay.Writing
import TimeProofs.Relay.Atomicity

/-!
# Runs of a process

Every reachable process is in order: two calls never write the same action at once, a call finds
what it has read and written inside the lock, and the revisions that the metadata covers stay.
Two actions share their directory only when the UTF-8 bytes of their ids share their SHA-256
digest. The digests are assumed not to collide; well-formed ids have different bytes, but ids with
lone surrogates may have the same.
-/

namespace TimeProofs.Relay

open TimeProofs.Base TimeProofs.Json TimeProofs.Core TimeProofs.VerdictEngine
  TimeProofs.StripeConnector

/-- The action whose files a request may write. A request to record an action under an id that is
not well formed is refused before it reaches the store, because the id is part of what is hashed. -/
def CallRequest.writes : CallRequest → Option JsString
  | .recordAction request =>
    match get (some request.input) (js "action_id") with
    | some (.str actionId) => if wellFormed actionId then some actionId else none
    | _ => none
  | .createAction a => some a.actionId
  | .appendRevision r => some r.actionId
  | .registerStripeRefund _ actionId => some actionId
  | _ => none

/-- The actions that a call which starts may write are among the given ones. -/
def Event.Writes (ids : Set JsString) : Event → Prop
  | .start request => ∀ actionId, request.writes = some actionId → actionId ∈ ids
  | _ => True

/-- A check that the calls write one action only. -/
def Event.writesOnly (actionId : JsString) : Event → Bool
  | .start request => request.writes.all fun id ↦ id = actionId
  | _ => true

theorem writes_of_writesOnly {actionId : JsString} {event : Event}
    (h : event.writesOnly actionId = true) : event.Writes {actionId} := by
  cases event with
  | start request =>
    intro id hid
    rw [Event.writesOnly, hid] at h
    exact of_decide_eq_true h
  | _ => trivial

/-- Well-formed ids have bytes of their own; two ids with lone surrogates may share theirs. -/
theorem injOn_utf8 : Set.InjOn utf8 {id | wellFormed id = true} :=
  fun _ hs _ ht h ↦ utf8_inj hs ht h

/-- Ids with bytes of their own, which SHA-256 does not send to one digest, have directories of
their own. -/
theorem injOn_actionKey {host : Host} {ids : Set JsString} (hids : Set.InjOn utf8 ids)
    (hsha : Set.InjOn host.sha256 (utf8 '' ids)) : Set.InjOn (actionKey host) ids := by
  intro id hid id' hid' heq
  have hbytes : utf8 id = utf8 id' :=
    hsha (Set.mem_image_of_mem _ hid) (Set.mem_image_of_mem _ hid') (sha256_of_sha256Hex heq)
  exact hids hid hid' hbytes

/-- The bytes of one id do not collide. -/
theorem injOn_bytes_singleton {host : Host} {actionId : JsString} :
    Set.InjOn host.sha256 (utf8 '' {actionId}) :=
  (Set.subsingleton_singleton.image _).injOn _

def Job.Known (ids : Set JsString) : Job → Prop
  | .store writer => writer.actionId ∈ ids
  | .link _ actionId _ => actionId ∈ ids

/-- The actions that a call may write are among the given ones. -/
def Phase.Known (ids : Set JsString) : Phase → Prop
  | .queueing job => job.Known ids
  | .waiting job _ => job.Known ids
  | .reading (.append r _ _) _ _ _ => r.actionId ∈ ids
  | .reading (.webhook _) actionId _ _ => actionId.text ∈ ids
  | .writing writer _ _ _ _ => writer.actionId ∈ ids
  | .linking _ actionId _ _ index => actionId ∈ ids ∧ ∀ entry ∈ index, entry.2 ∈ ids
  | _ => True

/-- The actions of a process are among the given ones. -/
structure IdsOk (ids : Set JsString) (p : Process) : Prop where
  index : ∀ entry ∈ p.store.stripeIndex, entry.2 ∈ ids
  calls : ∀ (i : Nat) phase, p.calls[i]? = some phase → phase.Known ids

section

variable {host : Host} {relay : RelayService} {store : Store} {locks : Locks JsString}
  {ids : Set JsString}

theorem mem_setIndex {index : List (JsString × JsString)} {refundId actionId : JsString}
    {entry : JsString × JsString} (h : entry ∈ setIndex index refundId actionId) :
    entry ∈ index ∨ entry.2 = actionId := by
  induction index with
  | nil =>
    rw [List.mem_singleton.mp h]
    exact .inr rfl
  | cons first rest ih =>
    rw [setIndex] at h
    split at h
    · rcases List.mem_cons.mp h with rfl | hrest
      · exact .inr rfl
      · exact .inl (List.mem_cons_of_mem first hrest)
    · rcases List.mem_cons.mp h with rfl | hrest
      · exact .inl List.mem_cons_self
      · exact (ih hrest).imp_left (List.mem_cons_of_mem first)

theorem mem_of_lookup {α : Type} {table : List (JsString × α)} {key : JsString} {v : α}
    (h : lookup table key = some v) : (key, v) ∈ table := by
  rw [lookup, Option.map_eq_some_iff] at h
  obtain ⟨entry, hentry, rfl⟩ := h
  have hkey : entry.1 = key := by simpa using List.find?_some hentry
  exact hkey ▸ List.mem_of_find?_eq_some hentry

/-- What a prepared revision takes from its webhook. -/
theorem prepareRevision_actionId {w : WebhookRequest} {received : ReceivedWebhook}
    {actionId : JsString} {previous : Snapshot} {r : NewRevision}
    (h : prepareRevision host relay w received actionId previous = .ok r) :
    r.actionId = actionId ∧ received.eventId.isSome ∧ r.upstreamEventId = received.eventId := by
  unfold prepareRevision at h
  simp only [bind_eq_ok_iff, throwing_eq_ok, digesting_eq_ok] at h
  obtain ⟨newEvents, -, timestamp, -, predecessor, -, h⟩ := h
  split at h
  · cases h
  · next eventId heventId =>
    simp only [bind_eq_ok_iff, throwing_eq_ok] at h
    obtain ⟨bundle, -, current, -, h⟩ := h
    obtain rfl := Except.ok.inj h
    rw [heventId]
    exact ⟨rfl, rfl, rfl⟩

/-- Only an action with a well-formed id is prepared. -/
theorem wellFormed_of_prepareAction {request : ActionRequest} {a : NewAction}
    (h : prepareAction host relay request = .ok a) : wellFormed a.actionId = true := by
  unfold prepareAction claimEvidence at h
  simp only [bind_eq_ok_iff, throwing_eq_ok, digesting_eq_ok] at h
  obtain ⟨input, -, timestamp, -, evidence, ⟨contentDigest, hdigest, -⟩, event, -, relationship, -,
    bundle, -, current, -, h⟩ := h
  obtain rfl := Except.ok.inj h
  have hencodable := digestValue_returns_iff.mp ⟨contentDigest, hdigest⟩
  exact ((encodable_obj _).mp hencodable _ List.mem_cons_self).2

/-- The action of a linked refund is one of the index. -/
theorem known_of_linkedAction {refundId key : JsString} {index : List (JsString × JsString)}
    {actionId : IndexValue} (hindex : ∀ entry ∈ index, entry.2 ∈ ids)
    (hlinked : linkedAction refundId (indexValue index refundId) = .ok actionId)
    (hkey : paths host actionId = .ok key) : actionId.text ∈ ids := by
  unfold linkedAction indexValue at hlinked
  split at hlinked
  · next id hid =>
    split at hid
    · next found hfound =>
      split at hlinked
      · cases hlinked
      · cases hlinked
        cases hid
        exact hindex _ (mem_of_lookup hfound)
    · split at hid <;> cases hid
  · cases hlinked
    cases hkey
  · cases hlinked

theorem Begins.known {request : CallRequest} {phase : Phase}
    (hwrites : ∀ actionId, request.writes = some actionId → actionId ∈ ids)
    (h : Begins host relay request phase) : phase.Known ids := by
  cases h with
  | recordAction hprepared =>
    apply hwrites
    rw [CallRequest.writes, (prepareAction_eq_ok hprepared).1]
    exact if_pos (wellFormed_of_prepareAction hprepared)
  | createAction => exact hwrites _ rfl
  | appendRevision => exact hwrites _ rfl
  | registerStripeRefund => exact hwrites _ rfl
  | _ => trivial

/-- A step keeps a call and the index among the given actions. -/
theorem known_of_advances {phase : Phase} {stepped : Stepped} (hphase : phase.Known ids)
    (hindex : ∀ entry ∈ store.stripeIndex, entry.2 ∈ ids)
    (h : Advances host relay store locks phase stepped) :
    stepped.phase.Known ids ∧ ∀ entry ∈ stepped.store.stripeIndex, entry.2 ∈ ids := by
  cases h with
  | enqueue => exact ⟨hphase, hindex⟩
  | enterCreate _ _ _ => exact ⟨hphase, hindex⟩
  | enterAppend _ _ => exact ⟨hphase, hindex⟩
  | enterLink _ _ => exact ⟨⟨hphase, hindex⟩, hindex⟩
  | @readMetadata reader _ _ _ _ => cases reader <;> exact ⟨hphase, hindex⟩
  | @readBundle reader _ _ _ _ _ => cases reader <;> exact ⟨hphase, hindex⟩
  | readPrepared _ _ hprepared =>
    refine ⟨?_, hindex⟩
    show Writer.actionId _ ∈ ids
    rw [Writer.actionId, (prepareRevision_actionId hprepared).1]
    exact hphase
  | readFresh _ _ => exact ⟨hphase, hindex⟩
  | writeBundle => exact ⟨hphase, hindex⟩
  | writeCurrent => exact ⟨hphase, hindex⟩
  | commitLink _ _ => exact ⟨hphase, hindex⟩
  | findAction hlinked hkey => exact ⟨known_of_linkedAction hindex hlinked hkey, hindex⟩
  | writeLink =>
    refine ⟨trivial, fun entry hentry ↦ ?_⟩
    rcases mem_setIndex hentry with hold | hnew
    · exact hphase.2 entry hold
    · exact hnew ▸ hphase.1
  | _ => exact ⟨trivial, hindex⟩

theorem IdsOk.step {p q : Process} {event : Event} (h : IdsOk ids p) (hwrites : event.Writes ids)
    (hstep : Steps host relay p event q) : IdsOk ids q := by
  constructor
  · cases hstep with
    | start => exact h.index
    | advance hcall hadvance =>
      exact (known_of_advances (h.calls _ _ hcall) h.index hadvance).2
    | crash => exact h.index
  · intro i phase hi
    cases hstep.origin hi with
    | begun hbegins _ => exact hbegins.known hwrites
    | stepped hcall hadvance _ =>
      exact (known_of_advances (h.calls i _ hcall) h.index hadvance).1
    | kept _ hcall => exact h.calls i phase hcall
    | @crashed _ old _ _ => cases old <;> trivial

end

theorem Critical.entered {phase : Phase} {actionId key : JsString}
    (h : Critical phase actionId key) : ∃ ticket, (ticket, actionId) ∈ phase.entered := by
  cases h with
  | @reading r source ticket _ key progress => exact ⟨ticket, List.mem_singleton_self _⟩
  | @writing writer ticket key metadata next => exact ⟨ticket, List.mem_singleton_self _⟩

theorem Critical.known {ids : Set JsString} {phase : Phase} {actionId key : JsString}
    (h : Critical phase actionId key) (hknown : phase.Known ids) : actionId ∈ ids := by
  cases h with
  | reading => exact hknown
  | writing => exact hknown

/-- A process is in order. -/
structure Orderly (host : Host) (ids : Set JsString) (p : Process) : Prop where
  locks : LocksOk p
  known : IdsOk ids p
  calls : ∀ (i : Nat) phase, p.calls[i]? = some phase → CallOk host p.store phase
  files : ∀ key, FilesOk (p.store.actions key)

section

variable {host : Host} {relay : RelayService} {ids : Set JsString} {p q : Process} {event : Event}

/-- Two calls inside the lock of their action have different directories. -/
theorem Orderly.critical_ne (h : Orderly host ids p) (hkeys : Set.InjOn (actionKey host) ids)
    {i j : Nat} {phase phase' : Phase} (hne : i ≠ j) (hi : p.calls[i]? = some phase)
    (hj : p.calls[j]? = some phase') {actionId actionId' key key' : JsString}
    (hcritical : Critical phase actionId key) (hcritical' : Critical phase' actionId' key') :
    key ≠ key' := by
  intro heq
  have hkey := paths_eq ((h.calls i phase hi).path hcritical)
  have hkey' := paths_eq ((h.calls j phase' hj).path hcritical')
  have hid : actionId = actionId' := hkeys (hcritical.known (h.known.calls i phase hi))
    (hcritical'.known (h.known.calls j phase' hj)) (hkey.symm.trans (heq.trans hkey'))
  subst hid
  obtain ⟨ticket, hticket⟩ := hcritical.entered
  obtain ⟨ticket', hticket'⟩ := hcritical'.entered
  exact hne (h.locks.exclusive hi hj hticket hticket')

/-- A call that takes a step finds what it has read and written. -/
theorem CallOk.advance {store : Store} {locks : Locks JsString} {phase : Phase} {stepped : Stepped}
    (h : CallOk host store phase) (hadvance : Advances host relay store locks phase stepped) :
    CallOk host stepped.store stepped.phase := by
  cases hadvance with
  | enterCreate _ hkey hnew => exact ⟨hkey, ⟨hnew, rfl⟩, trivial⟩
  | enterAppend _ hkey => exact ⟨rfl, hkey, trivial⟩
  | @readMetadata reader _ _ _ hmetadata =>
    cases reader with
    | append r source ticket => exact ⟨h.1, h.2.1, hmetadata⟩
    | _ => exact h
  | @readBundle reader _ _ _ _ hbundle =>
    cases reader with
    | append r source ticket => exact ⟨h.1, h.2.1, h.2.2, hbundle⟩
    | _ => exact h
  | @readList actionId key _ _ _ _ =>
    cases actionId with
    | actionId id => exact h
    | inherited => cases h
  | readFresh _ hnew => exact ⟨h.2.1, ⟨_, h.2.2.1, hnew, rfl⟩, trivial⟩
  | @writeBundle writer ticket key metadata =>
    obtain ⟨hkey, hextends, -⟩ := h
    refine ⟨hkey, ?_, ?_⟩
    · cases writer <;> simpa [Writer.Extends, Store.writeRevision] using hextends
    · show revisionOf ((store.writeRevision key _ _).actions key) _ = _
      rw [Store.writeRevision, actions_update_self, revisionOf_setMember, if_pos rfl]
  | @writeCurrent writer ticket key metadata =>
    obtain ⟨hkey, hextends, hbundle⟩ := h
    refine ⟨hkey, ?_, ?_⟩
    · cases writer <;> simpa [Writer.Extends, Store.writeCurrent] using hextends
    · rw [Store.writeCurrent, actions_update_self]
      exact ⟨hbundle, rfl⟩
  | findAction _ hkey => exact hkey
  | listNames => exact h
  | listFile _ => exact h
  | _ => trivial

/-- A call that has just started has read and written nothing. -/
theorem Begins.callOk {request : CallRequest} {phase : Phase} (h : Begins host relay request phase)
    (store : Store) : CallOk host store phase := by
  cases h with
  | getAction hkey => exact hkey
  | listRevisions hkey => exact hkey
  | _ => trivial

/-- Every action of a call's step but the one that it writes keeps its files. -/
theorem Orderly.files_advance (h : Orderly host ids p) {i : Nat} {phase : Phase}
    {stepped : Stepped} (hcall : p.calls[i]? = some phase)
    (hstore : StoreStep p.store phase stepped) (key : JsString) :
    Grows (p.store.actions key) (stepped.store.actions key) ∧
      FilesOk (stepped.store.actions key) ∧
      (stepped.store.actions key = p.store.actions key ∨
        ∃ actionId, Critical phase actionId key) := by
  cases hstore with
  | same _ hactions =>
    rw [hactions]
    exact ⟨.refl _, h.files key, .inl rfl⟩
  | @write writer ticket written metadata next hphase hactions =>
    subst hphase
    obtain ⟨-, hextends, hnext⟩ := h.calls i _ hcall
    rw [hactions]
    by_cases hkey : key = written
    · subst hkey
      rw [actions_update_self]
      exact ⟨grows_afterWrite hextends next, (h.files key).afterWrite hextends hnext,
        .inr ⟨_, .writing⟩⟩
    · rw [actions_update_ne hkey]
      exact ⟨.refl _, h.files key, .inl rfl⟩

/-- Every event keeps a process in order. -/
theorem Orderly.step (h : Orderly host ids p) (hkeys : Set.InjOn (actionKey host) ids)
    (hwrites : event.Writes ids) (hstep : Steps host relay p event q) : Orderly host ids q := by
  refine ⟨h.locks.step hstep, h.known.step hwrites hstep, ?_, ?_⟩
  · intro i phase hi
    cases hstep with
    | start =>
      rcases getElem?_append_eq_some hi with ⟨-, rfl⟩ | hi
      · exact (begins host relay _).callOk p.store
      · exact h.calls i phase hi
    | @advance j before stepped hcall hadvance =>
      rcases getElem?_set_eq_some hi with ⟨-, rfl⟩ | ⟨hne, hi⟩
      · exact (h.calls j before hcall).advance hadvance
      · apply (h.calls i phase hi).frame
        intro actionId key hcritical
        rcases (h.files_advance hcall (storeStep_of_advances hadvance) key).2.2 with
          hsame | ⟨actionId', hcritical'⟩
        · exact hsame
        · exact absurd rfl (h.critical_ne hkeys hne hi hcall hcritical hcritical')
    | crash =>
      rw [List.getElem?_map, Option.map_eq_some_iff] at hi
      obtain ⟨old, -, rfl⟩ := hi
      cases old <;> trivial
  · intro key
    cases hstep with
    | start => exact h.files key
    | advance hcall hadvance =>
      exact (h.files_advance hcall (storeStep_of_advances hadvance) key).2.1
    | crash => exact h.files key

/-- An event keeps the revisions that the metadata covers. -/
theorem Orderly.grows (h : Orderly host ids p) (hstep : Steps host relay p event q)
    (key : JsString) : Grows (p.store.actions key) (q.store.actions key) := by
  cases hstep with
  | start => exact .refl _
  | crash => exact .refl _
  | advance hcall hadvance =>
    exact (h.files_advance hcall (storeStep_of_advances hadvance) key).1

theorem orderly_fresh : Orderly host ids (.fresh .empty) where
  locks := locksOk_fresh _
  known := ⟨fun _ h ↦ (List.not_mem_nil h).elim, fun i phase h ↦ by simp [Process.fresh] at h⟩
  calls := fun i phase h ↦ by simp [Process.fresh] at h
  files := fun key ↦
    ⟨nofun, fun n hpositive hn ↦ absurd hn (Nat.not_le.mpr hpositive), nofun, nofun⟩

end

end TimeProofs.Relay
