import TimeProofs.Relay.AtMostOnce
import TimeProofs.Relay.Served

/-!
# The chain of revisions

`ingestStripeWebhook` builds a revision on the one that it reads outside the lock, and
`appendRevision` stores it after the one that it reads inside. As long as the two are the same,
each stored revision extends the one before it and no evidence is lost.
-/

namespace TimeProofs.Relay

open TimeProofs.Base TimeProofs.Json TimeProofs.Core TimeProofs.VerdictEngine
  TimeProofs.StripeConnector

/-- A bundle names the one before it as its only predecessor and extends its sections. -/
structure Follows (host : Host) (before after : Members) : Prop where
  predecessor : ∃ digest, calculatePayloadDigest host.toRuntime before = .ok digest ∧
    (sectionsOf after).predecessors = [digest]
  events : (sectionsOf before).events <+: (sectionsOf after).events
  evidence : (sectionsOf before).evidence <+: (sectionsOf after).evidence
  relationships : (sectionsOf before).relationships <+: (sectionsOf after).relationships
  proofs : (sectionsOf before).proofs <+: (sectionsOf after).proofs

/-- The revisions of an action follow each other, each with the id of its number. -/
structure ChainOk (host : Host) (files : ActionFiles) : Prop where
  bundleIds : ∀ n, 1 ≤ n → n ≤ committedRevision files → ∃ bundle actionId,
    revisionOf files n = some (.obj bundle) ∧
      bundleId bundle = some (.str (bundleIdOf host actionId n))
  follows : ∀ n, 1 ≤ n → n < committedRevision files → ∃ before after,
    revisionOf files n = some (.obj before) ∧ revisionOf files (n + 1) = some (.obj after) ∧
      Follows host before after

/-- The latest revision of an action has an evidence item with the given id. -/
def HasEvidence (files : ActionFiles) (evidenceId : JsString) : Prop :=
  ∃ bundle, revisionOf files (committedRevision files) = some (.obj bundle) ∧
    ∃ item ∈ (sectionsOf bundle).evidence,
      get (some item) (js "evidence_id") = some (.str evidenceId)

/-- The id of the evidence of an upstream event. -/
def evidenceIdOf (eventId : JsString) : JsString := js "tpev_stripe_" ++ normalizedId eventId

section

variable {host : Host} {relay : RelayService}

/-- Different revisions have different bundle ids, whatever their actions. -/
theorem bundleIdOf_inj {actionId actionId' : JsString} {m n : Nat}
    (h : bundleIdOf host actionId m = bundleIdOf host actionId' n) : m = n := by
  have hlength (id : JsString) : (safeId host id).length = 20 := by
    rw [safeId, sha256Hex, List.length_take, length_hexText, Sha256Digest.length_eq]
    rfl
  unfold bundleIdOf at h
  rw [List.append_assoc, List.append_assoc, List.append_assoc, List.append_assoc] at h
  have hrest := List.append_cancel_left h
  have hnumber := (List.append_inj hrest ((hlength actionId).trans (hlength actionId').symm)).2
  exact padStart_decimal_inj (List.append_cancel_left hnumber)

/-- The evidence of a webhook has the id of its upstream event. -/
theorem Received.evidenceId {w : WebhookRequest} {r : ReceivedWebhook} {parts : WebhookParts}
    (h : Received host relay w r parts) {eventId : JsString} (hid : r.eventId = some eventId) :
    member r.observation.evidence (js "evidence_id") = some (.str (evidenceIdOf eventId)) := by
  have hstripe : get (some r.stripeEvent) (js "id") = some (.str eventId) := by
    unfold ReceivedWebhook.eventId at hid
    split at hid
    · next id hget =>
      cases hid
      exact hget
    · cases hid
  have hparts := h.id
  rw [hstripe] at hparts
  have hnormalized : normalizedId eventId = parts.id := Except.ok.inj hparts
  obtain ⟨eventIdText, hevidence⟩ := h.evidence
  unfold stripeEvidence at hevidence
  simp only [bind_eq_ok_iff, mapError_eq_ok] at hevidence
  obtain ⟨contentDigest, -, authentication, -, hitem⟩ := hevidence
  rw [member_withObjectDigest hitem (by decide), evidenceIdOf, hnormalized]
  rfl

/-- A revision is remembered under the id of its upstream event. -/
theorem eq_of_remembered {r : NewRevision} {eventId id : JsString}
    (h : r.upstreamEventId = some eventId) (hid : r.remembered = some id) : id = eventId := by
  unfold NewRevision.remembered at hid
  rw [h] at hid
  dsimp only at hid
  split at hid
  · cases hid
  · exact (Option.some.inj hid).symm

/-- A prepared revision follows the revision that it was built on. -/
theorem PreparedRevision.follows {w : WebhookRequest} {r : ReceivedWebhook} {previous : Snapshot}
    {revision : NewRevision} {parts : RevisionParts}
    (h : PreparedRevision host relay w r previous revision parts) {webhook : WebhookParts}
    (hreceived : Received host relay w r webhook) (hprevious : Plain previous.bundle) :
    Follows host previous.members revision.bundle := by
  have hsections := h.sections hreceived hprevious
  refine ⟨⟨parts.predecessor, h.predecessor, ?_⟩, ?_, ?_, ?_, ?_⟩
  · rw [hsections]
  · rw [hsections]
    exact List.prefix_append _ _
  · rw [hsections]
    exact List.prefix_append _ _
  · rw [hsections]
    exact List.prefix_append _ _
  · rw [hsections]
    exact List.prefix_append _ _

end

/-- A call that writes a revision that it has built on the latest one. -/
structure BuiltOnLatest (host : Host) (relay : RelayService) (files : ActionFiles)
    (writer : Writer) (metadata : Metadata) : Prop where
  made : writer.Made host relay
  appends : writer.Extends files metadata
  latest : ∀ r delivery previous, writer = .append r (some (delivery, previous)) →
    Covers files previous.metadata.revision previous.bundle ∧
      previous.metadata.revision + 1 = metadata.revision
  plain : ∀ n bundle, revisionOf files n = some bundle → Plain bundle

section

variable {host : Host} {relay : RelayService} {files : ActionFiles} {writer : Writer}
  {metadata : Metadata}

/-- The bundle that is written follows the latest one, when there is one. -/
theorem BuiltOnLatest.follows (h : BuiltOnLatest host relay files writer metadata)
    {before : Members} (hbefore : revisionOf files (committedRevision files) = some (.obj before))
    (hcommitted : 1 ≤ committedRevision files) : Follows host before writer.bundle := by
  have hrevision := h.appends.revision
  have happends := h.appends
  cases hwriter : h.made with
  | create hprepared =>
    rw [committedRevision, happends.1] at hcommitted
    exact absurd hcommitted (by decide)
  | @append r delivery previous parts hchecked hruleset hprepared =>
    obtain ⟨hcovers, hlatest⟩ := h.latest r delivery previous rfl
    have heq : previous.metadata.revision = committedRevision files := by omega
    have hcontent := hcovers.content
    rw [heq, hbefore] at hcontent
    have hbundle : previous.bundle = .obj before := (Option.some.inj hcontent).symm
    obtain ⟨webhook, hreceived⟩ := hchecked
    have hfollows := hprepared.follows hreceived (h.plain _ _ hcovers.content)
    rwa [Snapshot.members, hbundle] at hfollows

/-- The bundle that is written has the id of its number. -/
theorem BuiltOnLatest.bundleId_eq (h : BuiltOnLatest host relay files writer metadata) :
    ∃ actionId, bundleId writer.bundle =
      some (.str (bundleIdOf host actionId metadata.revision)) := by
  have happends := h.appends
  cases h.made with
  | create hprepared =>
    obtain ⟨-, rfl⟩ := happends
    exact ⟨_, hprepared.bundleId_eq⟩
  | @append r delivery previous parts hchecked hruleset hprepared =>
    exact ⟨_, (h.latest r delivery previous rfl).2 ▸ hprepared.bundleId_eq⟩

/-- The revisions of an action follow each other when a call writes one built on the latest. -/
theorem ChainOk.afterWrite (h : ChainOk host files)
    (hbuilt : BuiltOnLatest host relay files writer metadata) {next : RevisionPart}
    (hnext : next.StillThere files writer metadata) :
    ChainOk host (files.afterWrite writer metadata next) := by
  have hrevision := hbuilt.appends.revision
  have hgrows := grows_afterWrite hbuilt.appends next
  by_cases hlast : next = .metadata
  · subst hlast
    have hbundle : revisionOf (files.afterWrite writer metadata .metadata) metadata.revision =
        some (.obj writer.bundle) := hnext.1.trans (congrArg some hbuilt.made.plain.clone_eq)
    have hcommitted : committedRevision (files.afterWrite writer metadata .metadata) =
        metadata.revision := rfl
    constructor
    · intro n hpositive hn
      rw [hcommitted] at hn
      by_cases heq : n = metadata.revision
      · obtain ⟨actionId, hid⟩ := hbuilt.bundleId_eq
        exact heq ▸ ⟨_, actionId, hbundle, hid⟩
      · rw [hgrows.kept n (by omega)]
        exact h.bundleIds n hpositive (by omega)
    · intro n hpositive hn
      rw [hcommitted] at hn
      rw [hgrows.kept n (by omega)]
      by_cases heq : n = committedRevision files
      · obtain ⟨before, -, hbefore, -⟩ := h.bundleIds n hpositive (by omega)
        refine ⟨before, writer.bundle, hbefore, ?_, ?_⟩
        · rw [heq, ← hrevision]
          exact hbundle
        · exact hbuilt.follows (heq ▸ hbefore) (heq ▸ hpositive)
      · rw [hgrows.kept (n + 1) (by omega)]
        exact h.follows n hpositive (by omega)
  · have hcommitted : committedRevision (files.afterWrite writer metadata next) =
        committedRevision files := by rw [committedRevision_afterWrite, if_neg hlast]
    constructor
    · intro n hpositive hn
      rw [hcommitted] at hn
      rw [hgrows.kept n hn]
      exact h.bundleIds n hpositive hn
    · intro n hpositive hn
      rw [hcommitted] at hn
      rw [hgrows.kept n (by omega), hgrows.kept (n + 1) (by omega)]
      exact h.follows n hpositive hn

/-- The evidence of the latest revision stays in the latest revision. -/
theorem HasEvidence.afterWrite {evidenceId : JsString} (h : HasEvidence files evidenceId)
    (hfiles : FilesOk files) (hbuilt : BuiltOnLatest host relay files writer metadata)
    {next : RevisionPart} (hnext : next.StillThere files writer metadata) :
    HasEvidence (files.afterWrite writer metadata next) evidenceId := by
  obtain ⟨before, hbefore, item, hitem, hid⟩ := h
  by_cases hlast : next = .metadata
  · subst hlast
    have hpositive : 1 ≤ committedRevision files := by
      obtain ⟨n, hn, -, hname⟩ := hfiles.names _ (member_isSome_iff.mp (by
        rw [show member files.revisions _ = some (.obj before) from hbefore]
        rfl))
      rwa [revisionFile_inj hname]
    refine ⟨writer.bundle, ?_, item, ?_, hid⟩
    · exact hnext.1.trans (congrArg some hbuilt.made.plain.clone_eq)
    · exact (hbuilt.follows hbefore hpositive).evidence.subset hitem
  · refine ⟨before, ?_, item, hitem, hid⟩
    rw [committedRevision_afterWrite, if_neg hlast,
      (grows_afterWrite hbuilt.appends next).kept _ (Nat.le_refl _)]
    exact hbefore

/-- A revision that a webhook's call writes has the evidence of the webhook. -/
theorem BuiltOnLatest.hasEvidence {r : NewRevision} {delivery : Delivery} {previous : Snapshot}
    (h : BuiltOnLatest host relay files (.append r (some (delivery, previous))) metadata)
    (hnext : RevisionPart.StillThere files (.append r (some (delivery, previous))) metadata
      .metadata) :
    ∃ eventId, delivery.received.eventId = some eventId ∧ r.upstreamEventId = some eventId ∧
      HasEvidence (files.afterWrite (.append r (some (delivery, previous))) metadata .metadata)
        (evidenceIdOf eventId) := by
  have hplain := h.made.plain
  cases h.made with
  | @append r delivery previous parts hchecked hruleset hprepared =>
    obtain ⟨hcovers, -⟩ := h.latest r delivery previous rfl
    obtain ⟨webhook, hreceived⟩ := hchecked
    refine ⟨parts.eventId, hprepared.eventId, hprepared.upstreamEventId, r.bundle, ?_,
      .obj delivery.received.observation.evidence, ?_, ?_⟩
    · exact hnext.1.trans (congrArg some hplain.clone_eq)
    · rw [hprepared.sections hreceived (h.plain _ _ hcovers.content)]
      exact List.mem_append_right _ (List.mem_singleton_self _)
    · exact hreceived.evidenceId hprepared.eventId

end

/-! ### Runs -/

/-- `appendRevision` stores a webhook's revision after the one that the webhook was built on. -/
def Event.AppendsToLatest (p : Process) : Event → Prop
  | .advance i => ∀ r delivery previous ticket actionId key m b,
      p.calls[i]? = some (.reading (.append r (some (delivery, previous)) ticket) actionId key
        (.bundle m b)) → r.isDuplicate m = false → previous.metadata.revision = m.revision
  | _ => True

/-- The upstream event that a call answers for has its evidence in the latest revision. -/
def Delivery.Kept (delivery : Delivery) (files : ActionFiles) : Prop :=
  ∃ eventId, delivery.received.eventId = some eventId ∧ HasEvidence files (evidenceIdOf eventId)

/-- What a call writes is built on the latest revision, and what it has seen stays. -/
def Phase.Chained (host : Host) (store : Store) : Phase → Prop
  | .reading _ _ key (.metadata m) =>
    m.seenUpstreamEventIds ⊆ seenEvents (store.actions key)
  | .reading _ _ key (.bundle m _) =>
    m.seenUpstreamEventIds ⊆ seenEvents (store.actions key)
  | .writing (.append _ (some (_, previous))) _ _ metadata _ =>
    previous.metadata.revision + 1 = metadata.revision
  | .settled (.delivered delivery actionId _) =>
    delivery.Kept (store.actions (actionKey host actionId))
  | _ => True

/-- The revisions of every action follow each other and have all evidence. -/
structure ChainedOk (host : Host) (p : Process) : Prop where
  chain : ∀ key, ChainOk host (p.store.actions key)
  evidence : ∀ key, ∀ eventId ∈ seenEvents (p.store.actions key),
    HasEvidence (p.store.actions key) (evidenceIdOf eventId)
  calls : ∀ (i : Nat) phase, p.calls[i]? = some phase → phase.Chained host p.store

/-- What an event does to the files of an action: they stay, or a revision that is built on the
latest one is written. -/
inductive FileStep (host : Host) (relay : RelayService) (files : ActionFiles) :
    ActionFiles → Prop where
  | same : FileStep host relay files files
  | write {writer : Writer} {metadata : Metadata} {next : RevisionPart}
      (hbuilt : BuiltOnLatest host relay files writer metadata)
      (hnext : next.StillThere files writer metadata) :
      FileStep host relay files (files.afterWrite writer metadata next)

section

variable {host : Host} {relay : RelayService} {ids : Set JsString} {p q : Process} {event : Event}

/-- A call that writes a revision has built it on the latest one. -/
theorem ChainedOk.builtOnLatest (hchained : ChainedOk host p) (h : ServiceOk host relay ids p)
    {i : Nat} {writer : Writer} {ticket : Nat} {key : JsString} {metadata : Metadata}
    {next : RevisionPart} (hcall : p.calls[i]? = some (.writing writer ticket key metadata next)) :
    BuiltOnLatest host relay (p.store.actions key) writer metadata := by
  obtain ⟨hpath, hextends, -⟩ := h.orderly.calls i _ hcall
  refine ⟨h.served.calls i _ hcall, hextends, ?_, h.served.plain key⟩
  intro r delivery previous hwriter
  subst hwriter
  have hcovers : Covers (p.store.actions (actionKey host r.actionId)) _ _ := h.covered i _ hcall
  rw [show actionKey host r.actionId = key from (paths_eq hpath).symm] at hcovers
  exact ⟨hcovers, hchained.calls i _ hcall⟩

theorem fileStep_of_advances (h : ServiceOk host relay ids p) (hchained : ChainedOk host p)
    {i : Nat} {phase : Phase} {stepped : Stepped} (hcall : p.calls[i]? = some phase)
    (hadvance : Advances host relay p.store p.locks phase stepped) (key : JsString) :
    FileStep host relay (p.store.actions key) (stepped.store.actions key) := by
  cases storeStep_of_advances hadvance with
  | same _ hactions => exact hactions ▸ .same
  | @write writer ticket written metadata next hphase hactions =>
    rw [hactions]
    by_cases hkey : key = written
    · subst hphase
      subst hkey
      rw [actions_update_self]
      exact .write (hchained.builtOnLatest h hcall) (h.orderly.calls i _ hcall).2.2
    · rw [actions_update_ne hkey]
      exact .same

theorem fileStep_of_steps (h : ServiceOk host relay ids p) (hchained : ChainedOk host p)
    (hstep : Steps host relay p event q) (key : JsString) :
    FileStep host relay (p.store.actions key) (q.store.actions key) := by
  cases hstep with
  | start => exact .same
  | advance hcall hadvance => exact fileStep_of_advances h hchained hcall hadvance key
  | crash => exact .same

section

variable {files files' : ActionFiles}

theorem FileStep.chain (h : FileStep host relay files files') (hchain : ChainOk host files) :
    ChainOk host files' := by
  cases h with
  | same => exact hchain
  | write hbuilt hnext => exact hchain.afterWrite hbuilt hnext

theorem FileStep.hasEvidence (h : FileStep host relay files files') (hfiles : FilesOk files)
    {evidenceId : JsString} (hevidence : HasEvidence files evidenceId) :
    HasEvidence files' evidenceId := by
  cases h with
  | same => exact hevidence
  | write hbuilt hnext => exact hevidence.afterWrite hfiles hbuilt hnext

theorem FileStep.seenEvents (h : FileStep host relay files files') :
    Relay.seenEvents files ⊆ Relay.seenEvents files' := by
  cases h with
  | same => exact List.Subset.refl _
  | write hbuilt hnext => exact seenEvents_afterWrite hbuilt.appends _

/-- The evidence of every remembered event stays in the latest revision, and that of a new one is
in it. -/
theorem FileStep.evidence (h : FileStep host relay files files') (hfiles : FilesOk files)
    (hevidence : ∀ eventId ∈ Relay.seenEvents files, HasEvidence files (evidenceIdOf eventId)) :
    ∀ eventId ∈ Relay.seenEvents files', HasEvidence files' (evidenceIdOf eventId) := by
  intro eventId hmem
  by_cases hold : eventId ∈ Relay.seenEvents files
  · exact h.hasEvidence hfiles (hevidence eventId hold)
  · cases h with
    | same => exact absurd hmem hold
    | @write writer metadata next hbuilt hnext =>
      cases next with
      | bundle => exact absurd hmem hold
      | current => exact absurd hmem hold
      | metadata =>
        have happends := hbuilt.appends
        cases hbuilt.made with
        | create hprepared =>
          obtain ⟨-, rfl⟩ := happends
          cases hmem
        | @append r delivery previous parts hchecked hruleset hprepared =>
          obtain ⟨id, -, hid, hnew⟩ := hbuilt.hasEvidence hnext
          obtain ⟨existing, hexisting, -, rfl⟩ := happends
          have hadded : eventId ∈ existing.seenUpstreamEventIds ++ r.remembered.toList := hmem
          rcases List.mem_append.mp hadded with hexists | hremembered
          · rw [Relay.seenEvents, hexisting] at hold
            exact absurd hexists hold
          · rw [eq_of_remembered hid (Option.mem_toList.mp hremembered)]
            exact hnew

end

theorem Begins.chained {request : CallRequest} {phase : Phase}
    (h : Begins host relay request phase) (store : Store) : phase.Chained host store := by
  cases h <;> trivial

theorem chained_linkResult (store : Store) (creating : Option Creating) :
    (Phase.settled (linkResult host creating)).Chained host store := by
  rcases linkResult_cases host creating with heq | ⟨_, heq⟩ | ⟨_, heq⟩ | ⟨_, heq⟩ <;>
    (rw [heq]; trivial)

/-- What answers a webhook has its evidence. -/
theorem chained_appendResult {store : Store} {r : NewRevision}
    {source : Option (Delivery × Snapshot)} {answer : Appended}
    (h : ∀ delivery previous, source = some (delivery, previous) →
      delivery.Kept (store.actions (actionKey host r.actionId))) :
    (Phase.settled (appendResult host r source answer)).Chained host store := by
  rcases appendResult_cases host r source answer with
    ⟨-, heq⟩ | ⟨delivery, previous, _, hsource, heq⟩ | ⟨_, heq⟩
  · rw [heq]
    trivial
  · rw [heq]
    exact h delivery previous hsource
  · rw [heq]
    trivial

/-- A call that writes goes on. -/
theorem chained_writing {store store' : Store} {writer : Writer} {ticket : Nat} {key : JsString}
    {metadata : Metadata} {next next' : RevisionPart}
    (h : (Phase.writing writer ticket key metadata next).Chained host store) :
    (Phase.writing writer ticket key metadata next').Chained host store' := by
  cases writer with
  | create a generatedAt => trivial
  | append r source =>
    cases source with
    | none => trivial
    | some source => exact h

/-- What a call has seen and what it is built on stays. -/
theorem Phase.Chained.grows {store store' : Store} {phase : Phase} (h : phase.Chained host store)
    (hseen : ∀ key, seenEvents (store.actions key) ⊆ seenEvents (store'.actions key))
    (hevidence : ∀ key evidenceId, HasEvidence (store.actions key) evidenceId →
      HasEvidence (store'.actions key) evidenceId) : phase.Chained host store' := by
  unfold Phase.Chained at h ⊢
  split
  · exact List.Subset.trans h (hseen _)
  · exact List.Subset.trans h (hseen _)
  · exact h
  · obtain ⟨eventId, hid, hold⟩ := h
    exact ⟨eventId, hid, hevidence _ _ hold⟩
  · trivial

/-- A call that takes a step. -/
private theorem chained_of_advance (h : ServiceOk host relay ids p) (hchained : ChainedOk host p)
    {i : Nat} {phase : Phase} {stepped : Stepped} (hcall : p.calls[i]? = some phase)
    (hlatest : (Event.advance i).AppendsToLatest p)
    (hadvance : Advances host relay p.store p.locks phase stepped) :
    stepped.phase.Chained host stepped.store := by
  have hphase := hchained.calls i phase hcall
  have hok := h.orderly.calls i phase hcall
  have hmade := h.served.calls i phase hcall
  cases hadvance with
  | @readMetadata reader actionId key metadata hmetadata =>
    show metadata.seenUpstreamEventIds ⊆ seenEvents (p.store.actions key)
    rw [seenEvents, hmetadata]
    exact List.Subset.refl _
  | @readBundle reader actionId key metadata bundle hbundle =>
    cases reader <;> exact hphase
  | @readDuplicate delivery actionId key metadata bundle current hcurrent hduplicate =>
    unfold ReceivedWebhook.isDuplicate at hduplicate
    split at hduplicate
    · next eventId hid =>
      refine ⟨eventId, hid, ?_⟩
      rw [← paths_text hok]
      exact hchained.evidence key eventId (hphase (of_decide_eq_true hduplicate))
    · cases hduplicate
  | @readAppended r source ticket actionId key metadata bundle current hcurrent hduplicate =>
    apply chained_appendResult
    intro delivery previous hsource
    subst hsource
    cases hmade.1 with
    | append hchecked hruleset hprepared =>
      refine ⟨_, hprepared.eventId, ?_⟩
      rw [show actionKey host r.actionId = key from (paths_eq hok.2.1).symm]
      unfold NewRevision.isDuplicate at hduplicate
      split at hduplicate
      · next id hid =>
        rw [eq_of_remembered hprepared.upstreamEventId hid] at hduplicate
        exact hchained.evidence key _ (hphase (of_decide_eq_true hduplicate))
      · cases hduplicate
  | @readFresh r source ticket actionId key metadata bundle current hcurrent hnew =>
    cases source with
    | none => trivial
    | some source =>
      show source.2.metadata.revision + 1 = metadata.revision + 1
      rw [hlatest _ _ _ _ _ _ _ _ hcall hnew]
  | writeBundle => exact chained_writing hphase
  | writeCurrent => exact chained_writing hphase
  | commitCreate hresult =>
    rcases hresult with ⟨-, rfl⟩ | ⟨-, rfl⟩
    · exact chained_linkResult _ (some ⟨_, _, 0⟩)
    · trivial
  | @commitAppend r source ticket key metadata =>
    apply chained_appendResult
    intro delivery previous hsource
    subst hsource
    obtain ⟨eventId, hid, -, hnew⟩ :=
      (hchained.builtOnLatest h hcall).hasEvidence hok.2.2
    refine ⟨eventId, hid, ?_⟩
    rw [show actionKey host r.actionId = key from (paths_eq hok.1).symm, Store.writeMetadata,
      actions_update_self]
    exact hnew
  | writeLink => exact chained_linkResult _ _
  | _ => trivial

theorem chainedOk_fresh : ChainedOk host (.fresh .empty) where
  chain := fun key ↦ ⟨fun n hpositive hn ↦ absurd hn (Nat.not_le.mpr hpositive),
    fun n _ hn ↦ absurd hn (Nat.not_lt_zero n)⟩
  evidence := fun key eventId h ↦ (List.not_mem_nil h).elim
  calls := fun i phase h ↦ by simp [Process.fresh] at h

/-- Every event of the service keeps the chain when revisions are appended to the latest one. -/
theorem ChainedOk.step (hchained : ChainedOk host p) (h : ServiceOk host relay ids p)
    (hlatest : event.AppendsToLatest p) (hstep : Steps host relay p event q) :
    ChainedOk host q := by
  have hfile := fileStep_of_steps h hchained hstep
  constructor
  · exact fun key ↦ (hfile key).chain (hchained.chain key)
  · exact fun key ↦ (hfile key).evidence (h.orderly.files key) (hchained.evidence key)
  · intro i phase hi
    cases hstep.origin hi with
    | begun hbegins _ => exact hbegins.chained q.store
    | @stepped _ before stepped hcall hadvance hstore =>
      rw [hstore]
      exact chained_of_advance h hchained hcall hlatest hadvance
    | kept _ hcall =>
      exact (hchained.calls i phase hcall).grows (fun key ↦ (hfile key).seenEvents)
        fun key _ ↦ (hfile key).hasEvidence (h.orderly.files key)
    | @crashed _ old hcall hstore =>
      rw [hstore]
      cases old with
      | settled result => exact hchained.calls i _ hcall
      | _ => trivial

/-- In every run of the service in which each revision of a webhook is appended to the one that
the webhook was built on, every revision of every action follows the one before it, no two have
the same id, and the evidence of every webhook that was answered is in the latest one. -/
theorem revisions_form_a_chain (host : Host) (relay : RelayService) (ids : Set JsString)
    (hids : Set.InjOn utf8 ids) (hsha : Set.InjOn host.sha256 (utf8 '' ids))
    (p : Process)
    (hrun : Runs (Process.step host relay)
      (fun s event ↦ event.Writes ids ∧ event.Served ∧ event.AppendsToLatest s) (.fresh .empty) p) :
    (∀ key n, 1 ≤ n → n < committedRevision (p.store.actions key) → ∃ before after,
      revisionOf (p.store.actions key) n = some (.obj before) ∧
        revisionOf (p.store.actions key) (n + 1) = some (.obj after) ∧
        Follows host before after) ∧
    (∀ key m n before after, 1 ≤ m → m < n → n ≤ committedRevision (p.store.actions key) →
      revisionOf (p.store.actions key) m = some (.obj before) →
      revisionOf (p.store.actions key) n = some (.obj after) →
      bundleId before ≠ bundleId after) ∧
    ∀ (i : Nat) delivery actionId response,
      p.calls[i]? = some (.settled (.delivered delivery actionId response)) →
        delivery.Kept (p.store.actions (actionKey host actionId)) := by
  have hkeys := injOn_actionKey hids hsha
  have hinv : ServiceOk host relay ids p ∧ ChainedOk host p := by
    apply hrun.keeps _ ⟨serviceOk_fresh, chainedOk_fresh⟩
    rintro s event t ⟨hservice, hchained⟩ ⟨hwrites, hserved, hlatest⟩ hstep
    have hsteps := steps_of_step hstep
    exact ⟨hservice.step hkeys hwrites hserved hsteps, hchained.step hservice hlatest hsteps⟩
  refine ⟨fun key ↦ (hinv.2.chain key).follows, ?_, ?_⟩
  · intro key m n before after hpositive hlt hn hbefore hafter heq
    obtain ⟨bundle, actionId, hbundle, hid⟩ := (hinv.2.chain key).bundleIds m hpositive (by omega)
    obtain ⟨bundle', actionId', hbundle', hid'⟩ := (hinv.2.chain key).bundleIds n (by omega) hn
    obtain rfl : bundle = before := Json.obj.inj (Option.some.inj (hbundle.symm.trans hbefore))
    obtain rfl : bundle' = after := Json.obj.inj (Option.some.inj (hbundle'.symm.trans hafter))
    rw [hid, hid'] at heq
    have := bundleIdOf_inj (Json.str.inj (Option.some.inj heq))
    omega
  · intro i delivery actionId response hi
    exact hinv.2.calls i _ hi

end

/-! ### Two webhooks at once -/

/-- A check that a webhook's revision is appended to the one that it was built on. -/
def Event.isAppendedToLatest (p : Process) : Event → Bool
  | .advance i =>
    match p.calls[i]? with
    | some (.reading (.append r (some (_, previous)) _) _ _ (.bundle m _)) =>
      r.isDuplicate m || previous.metadata.revision = m.revision
    | _ => true
  | _ => true

theorem appendsToLatest_of_check {p : Process} {event : Event}
    (h : event.isAppendedToLatest p = true) : event.AppendsToLatest p := by
  cases event with
  | advance i =>
    intro r delivery previous ticket actionId key m b hcall hnew
    rw [Event.isAppendedToLatest, hcall] at h
    dsimp only at h
    rw [hnew, Bool.false_or] at h
    exact of_decide_eq_true h
  | _ => trivial

/-- The refund has failed. -/
def failedWebhook : WebhookRequest :=
  sampleWebhook ("\x7b\"id\":\"evt_20\",\"type\":\"refund.failed\",\"created\":1784829670," ++
      "\"data\":\x7b\"object\":\x7b\"object\":\"refund\",\"id\":\"re_1\"," ++
      "\"status\":\"failed\"\x7d\x7d\x7d")
    "t=1784829671,v1=12a16678c10eee7d431344abf3a1aee9b8e800cd44a5ea2fb6bbfbd3ce3e9576"
    1784829672000

/-- The sample action is recorded, two webhooks read it, and the first one is appended. -/
def firstAppendedRun : List Event :=
  .start (.recordAction (sampleAction (jsonText "re_1"))) :: List.replicate 8 (.advance 0) ++
    .start (.ingestStripeWebhook settledWebhook) :: List.replicate 4 (.advance 1) ++
    .start (.ingestStripeWebhook failedWebhook) :: List.replicate 4 (.advance 2) ++
    List.replicate 8 (.advance 1)

/-- The second one is appended after it. -/
def secondAppendedRun : List Event := List.replicate 8 (.advance 2)

/-- Whether the second and the third revision of an action have the same id. -/
def sharesBundleId (files : ActionFiles) : Bool :=
  match revisionOf files 2, revisionOf files 3 with
  | some (.obj second), some (.obj third) =>
    match bundleId second with
    | some (.str id) => isText (bundleId third) id
    | _ => false
  | _, _ => false

/-- The files of the sample action. -/
def sampleFiles (p : Process) : ActionFiles := p.store.actions (actionKey sampleHost (js "a1"))

private theorem appendedRunFacts :
    (runChecked (Process.step sampleHost sampleRelay)
      (fun p event ↦ (event.writesOnly (js "a1") && event.isServed) && event.isAppendedToLatest p)
      (.fresh .empty) firstAppendedRun).any (fun p ↦
        (p.calls[1]?.any Phase.tookEffect && committedRevision (sampleFiles p) = 2) &&
        (runChecked (Process.step sampleHost sampleRelay)
          (fun _ event ↦ event.writesOnly (js "a1") && event.isServed) p
          secondAppendedRun).any fun q ↦
            sharesBundleId (sampleFiles q) && committedRevision (sampleFiles q) = 3) = true := by
  decide +kernel

/-- The first webhook that is appended extends the recorded action, and its evidence is there. -/
theorem revisions_form_a_chain_appended :
    ∃ (p : Process) (before after : Members) (delivery : Delivery),
      committedRevision (sampleFiles p) = 2 ∧ revisionOf (sampleFiles p) 1 = some (.obj before) ∧
      revisionOf (sampleFiles p) 2 = some (.obj after) ∧ Follows sampleHost before after ∧
      bundleId before ≠ bundleId after ∧
      (∃ response, p.calls[1]? = some (.settled (.delivered delivery (js "a1") response))) ∧
      delivery.Kept (sampleFiles p) := by
  obtain ⟨p, hp, hfacts⟩ := (Option.any_eq_true _ _).mp appendedRunFacts
  rw [Bool.and_eq_true, Bool.and_eq_true, Option.any_eq_true, decide_eq_true_eq] at hfacts
  obtain ⟨⟨⟨phase, hphase, heffect⟩, hcommitted⟩, -⟩ := hfacts
  obtain ⟨delivery, ⟨⟩⟩ := tookEffect_iff.mp heffect
  have hgood (event : Event) (_ : event ∈ firstAppendedRun) (s : Process)
      (h : ((event.writesOnly (js "a1") && event.isServed) && event.isAppendedToLatest s) = true) :
      event.Writes {js "a1"} ∧ event.Served ∧ event.AppendsToLatest s := by
    rw [Bool.and_eq_true, Bool.and_eq_true] at h
    exact ⟨writes_of_writesOnly h.1.1, served_of_isServed h.1.2, appendsToLatest_of_check h.2⟩
  obtain ⟨hfollows, hids, hkept⟩ := revisions_form_a_chain sampleHost sampleRelay {js "a1"}
    (Set.injOn_singleton _ _) injOn_bytes_singleton p (runs_of_runChecked hgood hp)
  have hlast : 1 < committedRevision (sampleFiles p) := by
    rw [hcommitted]
    decide
  obtain ⟨before, after, hbefore, hafter, hfollow⟩ := hfollows _ 1 (Nat.le_refl 1) hlast
  exact ⟨p, before, after, delivery, hcommitted, hbefore, hafter, hfollow,
    hids _ 1 2 before after (Nat.le_refl 1) (by decide) hlast hbefore hafter, ⟨_, hphase⟩,
    hkept 1 delivery (js "a1") _ hphase⟩

/-- Two webhooks that both read the first revision give the second and the third one the same
id. -/
theorem overlapping_webhooks_share_bundleId :
    ¬∀ p : Process, Runs (Process.step sampleHost sampleRelay)
        (fun _ event ↦ event.Writes {js "a1"} ∧ event.Served) (.fresh .empty) p →
      (∀ key n, 1 ≤ n → n < committedRevision (p.store.actions key) → ∃ before after,
        revisionOf (p.store.actions key) n = some (.obj before) ∧
          revisionOf (p.store.actions key) (n + 1) = some (.obj after) ∧
          Follows sampleHost before after) ∧
      (∀ key m n before after, 1 ≤ m → m < n → n ≤ committedRevision (p.store.actions key) →
        revisionOf (p.store.actions key) m = some (.obj before) →
        revisionOf (p.store.actions key) n = some (.obj after) →
        bundleId before ≠ bundleId after) ∧
      ∀ (i : Nat) delivery actionId response,
        p.calls[i]? = some (.settled (.delivered delivery actionId response)) →
          delivery.Kept (p.store.actions (actionKey sampleHost actionId)) := by
  intro hclaim
  obtain ⟨p, hp, hfacts⟩ := (Option.any_eq_true _ _).mp appendedRunFacts
  rw [Bool.and_eq_true, Option.any_eq_true] at hfacts
  obtain ⟨-, q, hq, hshared⟩ := hfacts
  rw [Bool.and_eq_true, decide_eq_true_eq] at hshared
  obtain ⟨hshared, hcommitted⟩ := hshared
  have hgood (event : Event) (h : (event.writesOnly (js "a1") && event.isServed) = true) :
      event.Writes {js "a1"} ∧ event.Served := by
    rw [Bool.and_eq_true] at h
    exact ⟨writes_of_writesOnly h.1, served_of_isServed h.2⟩
  have hbefore : Runs (Process.step sampleHost sampleRelay)
      (fun _ event ↦ event.Writes {js "a1"} ∧ event.Served) (.fresh .empty) p := by
    apply runs_of_runChecked (fun event _ s h ↦ ?_) hp
    rw [Bool.and_eq_true] at h
    exact hgood event h.1
  obtain ⟨-, hids, -⟩ :=
    hclaim q (hbefore.trans (runs_of_runChecked (fun event _ _ ↦ hgood event) hq))
  unfold sharesBundleId at hshared
  split at hshared
  · next second third hsecond hthird =>
    split at hshared
    · next id hid =>
      apply hids (actionKey sampleHost (js "a1")) 2 3 second third (by decide) (by decide) ?_
        hsecond hthird
      · rw [hid, isText_iff.mp hshared]
      · exact Nat.le_of_eq hcommitted.symm
    · cases hshared
  · cases hshared

end TimeProofs.Relay
