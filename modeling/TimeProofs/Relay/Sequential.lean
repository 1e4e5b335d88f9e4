import TimeProofs.Relay.Prepared
import TimeProofs.Relay.Writing

/-!
# One request after another

What `createAction` and `ingestStripeWebhook` do to the files of an action when no other call
runs beside them: a recorded action starts its files, a webhook extends them or leaves them.
-/

namespace TimeProofs.Relay

open TimeProofs.Base TimeProofs.Json TimeProofs.Core TimeProofs.VerdictEngine
  TimeProofs.StripeConnector

/-- The files of an action are those of a snapshot. -/
structure ActionFiles.Holds (files : ActionFiles) (latest : Snapshot) : Prop where
  metadata : files.metadata = some latest.metadata
  bundle : revisionOf files latest.metadata.revision = some latest.bundle
  current : files.current = some latest.current

/-- The files of an action are those of one snapshot. -/
theorem ActionFiles.Holds.eq {files : ActionFiles} {latest latest' : Snapshot}
    (h : files.Holds latest) (h' : files.Holds latest') : latest = latest' := by
  obtain ⟨metadata, bundle, current⟩ := latest
  obtain ⟨metadata', bundle', current'⟩ := latest'
  obtain rfl : metadata = metadata' := Option.some.inj (h.metadata.symm.trans h'.metadata)
  obtain rfl : bundle = bundle' := Option.some.inj (h.bundle.symm.trans h'.bundle)
  obtain rfl : current = current' := Option.some.inj (h.current.symm.trans h'.current)
  rfl

section

variable {host : Host} {relay : RelayService} {s t : Store}

theorem ofExcept_resolved {α : Type} {result : Except Rejection α} {a : α} :
    (Call.ofExcept result : StoreCall α) s = (.resolved a, t) ↔ result = .ok a ∧ t = s := by
  cases result <;> simp [eq_comm]

theorem readFile_resolved {α : Type} {actionId : IndexValue} {file : Store → Option α}
    {content : α} :
    readFile actionId file s = (.resolved content, t) ↔ file s = some content ∧ t = s := by
  unfold readFile
  rw [Call.run_bind_resolved (Call.run_read _)]
  cases file s <;> simp [eq_comm]

/-- `getAction` returns the files of its action. -/
theorem getAction_resolved {actionId : IndexValue} {found : Snapshot} :
    getAction host actionId s = (.resolved found, t) ↔
      t = s ∧ ∃ key, paths host actionId = .ok key ∧ (s.actions key).Holds found := by
  unfold getAction
  simp only [Call.run_bind_eq_resolved, ofExcept_resolved, readFile_resolved]
  constructor
  · rintro ⟨key, _, ⟨hkey, rfl⟩, metadata, _, ⟨hmetadata, rfl⟩, bundle, _, ⟨hbundle, rfl⟩, current,
      _, ⟨hcurrent, rfl⟩, h⟩
    cases h
    exact ⟨rfl, key, hkey, ⟨hmetadata, hbundle, hcurrent⟩⟩
  · rintro ⟨rfl, key, hkey, hmetadata, hbundle, hcurrent⟩
    exact ⟨key, _, ⟨hkey, rfl⟩, _, _, ⟨hmetadata, rfl⟩, _, _, ⟨hbundle, rfl⟩, _, _, ⟨hcurrent, rfl⟩,
      rfl⟩

/-- The files of a revision, written one after the other. -/
def Store.writeFiles (s : Store) (key : JsString) (metadata : Metadata) (bundle : Members)
    (current : CurrentSummary) : Store :=
  ((s.writeRevision key (revisionFile metadata.revision) bundle).writeCurrent key
    current).writeMetadata key metadata

theorem actions_writeFiles {key k : JsString} {metadata : Metadata} {bundle : Members}
    {current : CurrentSummary} (hne : k ≠ key) :
    (s.writeFiles key metadata bundle current).actions k = s.actions k := by
  simp [Store.writeFiles, Store.writeMetadata, Store.writeCurrent, Store.writeRevision,
    Store.update, hne]

/-- The latest revision is the one that was written. -/
theorem holds_writeFiles (s : Store) (key : JsString) (metadata : Metadata) (bundle : Members)
    (current : CurrentSummary) :
    ((s.writeFiles key metadata bundle current).actions key).Holds
      ⟨metadata.stored, clone (.obj bundle), current⟩ := by
  have hactions : (s.writeFiles key metadata bundle current).actions key =
      { metadata := some metadata.stored, current := some current,
        revisions := setMember (s.actions key).revisions (revisionFile metadata.revision)
          (clone (.obj bundle)) } := by
    simp [Store.writeFiles, Store.writeMetadata, Store.writeCurrent, Store.writeRevision,
      Store.update]
  rw [hactions]
  refine ⟨rfl, ?_, rfl⟩
  show revisionOf _ metadata.revision = _
  rw [revisionOf, member_setMember, if_pos rfl]

/-- What `appendRevision` does. -/
theorem appendRevision_cases {r : NewRevision} {outcome : Outcome Rejection Appended}
    (h : appendRevision host r s = (outcome, t)) :
    (t = s ∧ ∀ stored, outcome ≠ .resolved (.revision stored)) ∨
    ∃ existing, (s.actions (actionKey host r.actionId)).Holds existing ∧
      r.isDuplicate existing.metadata = false ∧
      outcome = .resolved (.revision ⟨r.metadata existing.metadata, r.bundle, r.current⟩) ∧
      t = s.writeFiles (actionKey host r.actionId) (r.metadata existing.metadata) r.bundle
        r.current := by
  have hread : (getAction host (.actionId r.actionId) s).2 = s := readOnly_getAction _ s
  unfold appendRevision withLock at h
  rw [if_neg (by simp)] at h
  dsimp only at h
  rw [Call.run_bind] at h
  rcases hget : getAction host (.actionId r.actionId) s with ⟨found, u⟩
  rw [hget] at h hread
  obtain rfl : u = s := hread
  cases found with
  | pending =>
    cases h
    exact .inl ⟨rfl, fun _ heq ↦ by cases heq⟩
  | rejected reason =>
    cases h
    exact .inl ⟨rfl, fun _ heq ↦ by cases heq⟩
  | resolved existing =>
    obtain ⟨-, key, hkey, hholds⟩ := getAction_resolved.mp hget
    obtain rfl := paths_eq hkey
    dsimp only at h
    split at h
    · cases h
      exact .inl ⟨rfl, fun _ heq ↦ by cases heq⟩
    · next hnew =>
      rw [hkey, Call.run_bind_resolved (Call.run_ok _)] at h
      cases h
      exact .inr ⟨existing, hholds, Bool.eq_false_iff.mpr hnew, rfl, rfl⟩

/-- A webhook that extends an action. -/
structure Ingests (host : Host) (relay : RelayService) (w : WebhookRequest) (s t : Store)
    (actionId : JsString) (r : ReceivedWebhook) (previous : Snapshot) (revision : NewRevision) :
    Prop where
  received : receiveWebhook host relay w = .ok r
  linked : linkedAction r.refundId (indexValue s.stripeIndex r.refundId) =
    .ok (.actionId actionId)
  holds : (s.actions (actionKey host actionId)).Holds previous
  isNew : r.isDuplicate previous.metadata = false
  prepared : prepareRevision host relay w r actionId previous = .ok revision
  store : t = s.writeFiles (actionKey host actionId) (revision.metadata previous.metadata)
    revision.bundle revision.current

/-- A webhook that is not appended leaves the store alone, and another one extends its action. -/
theorem ingestStripeWebhook_cases {w : WebhookRequest} {outcome : Outcome Rejection WebhookResponse}
    (h : ingestStripeWebhook host relay w s = (outcome, t)) :
    (t = s ∧ ∀ stored packet, outcome ≠ .resolved (.appended (.revision stored) packet)) ∨
    ∃ actionId r previous revision packet, Ingests host relay w s t actionId r previous revision ∧
      outcome = .resolved (.appended (.revision
        ⟨revision.metadata previous.metadata, revision.bundle, revision.current⟩) packet) := by
  have hkept (answer : Outcome Rejection WebhookResponse) (heq : (answer, s) = (outcome, t))
      (hnot : ∀ stored packet, answer ≠ .resolved (.appended (.revision stored) packet)) :
      t = s ∧ ∀ stored packet, outcome ≠ .resolved (.appended (.revision stored) packet) := by
    cases heq
    exact ⟨rfl, hnot⟩
  unfold ingestStripeWebhook findByStripeRefundId at h
  cases hreceived : receiveWebhook host relay w with
  | error reason =>
    rw [hreceived, Call.run_bind_rejected (Call.run_error reason)] at h
    exact .inl (hkept _ h fun _ _ heq ↦ by cases heq)
  | ok r =>
    rw [hreceived, Call.run_bind_resolved (Call.run_ok r),
      Call.run_bind_resolved (Call.run_read _)] at h
    cases hlinked : linkedAction r.refundId (indexValue s.stripeIndex r.refundId) with
    | error reason =>
      rw [hlinked, Call.run_bind_rejected (Call.run_error reason)] at h
      exact .inl (hkept _ h fun _ _ heq ↦ by cases heq)
    | ok value =>
      have hread : (getAction host value s).2 = s := readOnly_getAction _ s
      rw [hlinked, Call.run_bind_resolved (Call.run_ok value), Call.run_bind] at h
      rcases hget : getAction host value s with ⟨found, u⟩
      rw [hget] at h hread
      obtain rfl : u = s := hread
      cases found with
      | pending => exact .inl (hkept _ h fun _ _ heq ↦ by cases heq)
      | rejected reason => exact .inl (hkept _ h fun _ _ heq ↦ by cases heq)
      | resolved previous =>
        obtain ⟨-, key, hkey, hholds⟩ := getAction_resolved.mp hget
        dsimp only at h
        cases value with
        | inherited => cases hkey
        | actionId actionId =>
          obtain rfl := paths_eq hkey
          split at h
          · exact .inl (hkept _ h fun _ _ heq ↦ by cases heq)
          · next hnew =>
            cases hprepared : prepareRevision host relay w r actionId previous with
            | error reason =>
              rw [IndexValue.text, hprepared, Call.run_bind_rejected (Call.run_error reason)] at h
              exact .inl (hkept _ h fun _ _ heq ↦ by cases heq)
            | ok revision =>
              obtain ⟨rfl, -⟩ := prepareRevision_prepared hprepared
              obtain ⟨packet, hpacket⟩ := prepareRevision_packet hprepared
              rw [IndexValue.text, hprepared, Call.run_bind_resolved (Call.run_ok revision),
                Call.run_bind, hpacket] at h
              rcases happend : appendRevision host revision u with ⟨answer, v⟩
              rw [happend] at h
              rcases appendRevision_cases happend with
                ⟨rfl, hnot⟩ | ⟨existing, hexisting, -, rfl, rfl⟩
              · cases answer with
                | pending => exact .inl (hkept _ h fun _ _ heq ↦ by cases heq)
                | rejected reason => exact .inl (hkept _ h fun _ _ heq ↦ by cases heq)
                | resolved answer =>
                  cases answer with
                  | duplicate _ => exact .inl (hkept _ h fun _ _ heq ↦ by cases heq)
                  | revision stored => exact absurd rfl (hnot stored)
              · obtain rfl := hexisting.eq hholds
                cases h
                exact .inr ⟨revision.actionId, r, existing, revision, packet, ⟨hreceived, hlinked,
                  hholds, Bool.eq_false_iff.mpr hnew, hprepared, rfl⟩, rfl⟩

/-- Linking a refund changes no action. -/
theorem actions_linkRefund {held : List JsString} {a : NewAction}
    (h : linkRefund held a s = (.resolved (), t)) : t.actions = s.actions := by
  unfold linkRefund at h
  cases hrefund : a.stripeRefundId with
  | none =>
    rw [hrefund] at h
    cases h
    rfl
  | some refundId =>
    rw [hrefund] at h
    cases refundId with
    | str refundId =>
      unfold registerStripeRefund withLock at h
      dsimp only at h
      split at h
      · cases h
      · split at h
        · cases h
        · rw [Call.run_bind_resolved (Call.run_read _)] at h
          split at h
          · cases h
          · cases h
            rfl
    | _ => cases h

/-- A recorded action has the files that were prepared for it. -/
theorem recordAction_resolved {request : ActionRequest} {response : Response}
    (h : recordAction host relay request s = (.resolved response, t)) :
    ∃ a, prepareAction host relay request = .ok a ∧ response.stored.metadata = a.metadata ∧
      (t.actions (actionKey host a.actionId)).Holds
        ⟨a.metadata.stored, clone (.obj a.bundle), a.current⟩ := by
  unfold recordAction at h
  simp only [Call.run_bind_eq_resolved, ofExcept_resolved] at h
  obtain ⟨a, _, ⟨hprepared, hsame⟩, stored, u, hcreated, packet, _, ⟨-, rfl⟩, h⟩ := h
  rw [hsame] at hcreated
  cases h
  refine ⟨a, hprepared, ?_⟩
  cases hkey : paths host (.actionId a.actionId) with
  | error reason =>
    unfold createAction withLock at hcreated
    rw [if_neg (by simp), hkey] at hcreated
    cases hcreated
  | ok key =>
    obtain rfl := paths_eq hkey
    cases hmetadata : (s.actions (actionKey host a.actionId)).metadata with
    | some existing =>
      rw [createAction_exists hkey hmetadata] at hcreated
      cases hcreated
    | none =>
      rw [createAction_run hkey hmetadata, Call.run_bind_eq_resolved] at hcreated
      obtain ⟨_, v, hlinked, hstored⟩ := hcreated
      cases hstored
      rw [actions_linkRefund hlinked]
      exact ⟨rfl, holds_writeFiles s _ a.metadata a.bundle a.current⟩

end

end TimeProofs.Relay
