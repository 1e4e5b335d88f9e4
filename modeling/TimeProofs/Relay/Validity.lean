import TimeProofs.Relay.Chain
import TimeProofs.Relay.Extended

/-!
# Valid revisions

Every revision that a run of the service stores verifies as VALID, however its calls interleave
and wherever it crashes: a webhook that was built on an older revision is still appended as a
bundle of its own.
-/

namespace TimeProofs.Relay

open TimeProofs.Base TimeProofs.Json TimeProofs.Core TimeProofs.VerdictEngine
  TimeProofs.StripeConnector

section

variable {host : Host} {relay : RelayService}

/-- What the relay calls valid verifies. -/
theorem ValidBundle.verified {seen : List JsString} {bundle : Members}
    (h : ValidBundle host relay seen bundle) :
    ∃ result, verifyBundle host.toRuntime (.obj bundle) = .ok result ∧ result.status = .valid := by
  have haccepts : verifyBundle host.toRuntime (.obj bundle) =
      .ok (conclude host.toRuntime bundle []) ∧
        (conclude host.toRuntime bundle []).status ≠ .invalid :=
    verifyBundle_accepts.mpr ⟨_, _, rfl, h.accepted, rfl⟩
  refine ⟨_, haccepts.1, ?_⟩
  have hreasons : incompleteReasons (sectionsOf bundle) = [] := by
    rw [incompleteReasons, List.isEmpty_eq_false_iff.mpr h.events,
      List.isEmpty_eq_false_iff.mpr h.evidence, List.isEmpty_eq_false_iff.mpr h.proofs]
    rfl
  unfold conclude
  simp only [hreasons, List.isEmpty_nil, if_true]

variable {request : ActionRequest} {a : NewAction} {parts : ActionParts}

theorem relayId_claim {keys : List JsString} {word full : JsString} (hword : word ∈ idWords)
    (hfull : full = word ++ js "claim_") (rest : JsString) : RelayId keys (full ++ rest) := by
  rw [hfull, List.append_assoc]
  exact .claim hword rest

/-- The bundle of a recorded action is valid when its request is well posed. -/
theorem PreparedAction.validBundle (h : PreparedAction host relay request a parts)
    (hrelay : relay.WellNamed)
    (hmatch : MatchingKey host.toRuntime (relayKey relay) relay.key.privateKeyPem)
    (hposed : request.WellPosed) : ValidBundle host relay [] a.bundle := by
  have hsections := h.sections
  obtain ⟨hevent, hevidence, hrelationship⟩ := h.built
  constructor
  case plain => exact h.plain
  case accepted => exact (h.accepted_iff hmatch).mpr ⟨hrelay, hposed⟩
  case objectIds =>
    intro id hid
    have hids : (sectionsOf a.bundle).objectIds =
        [js "tpe_claim_" ++ parts.suffix host, js "tpev_claim_" ++ parts.suffix host,
          js "tpr_claim_" ++ parts.suffix host] := by
      rw [hsections, Sections.objectIds]
      simp only [idsOf, List.filterMap_cons, List.filterMap_nil, stringId, hevent, hevidence,
        hrelationship, List.singleton_append]
    rw [hids] at hid
    simp only [List.mem_cons, List.not_mem_nil, or_false] at hid
    have hwords : js "tpe_" ∈ idWords ∧ js "tpev_" ∈ idWords ∧ js "tpr_" ∈ idWords := by decide
    rcases hid with rfl | rfl | rfl
    · exact relayId_claim hwords.1 rfl _
    · exact relayId_claim hwords.2.1 rfl _
    · exact relayId_claim hwords.2.2 rfl _
  case proofIds =>
    intro id hid
    rw [hsections, h.signs.ids, List.mem_map] at hid
    obtain ⟨i, -, rfl⟩ := hid
    rw [List.append_assoc, List.append_assoc]
    exact relayId_claim (by decide : js "tpp_" ∈ idWords) rfl _
  case named =>
    intro proof hproof
    rw [hsections] at hproof
    apply h.signs.named _ proof hproof
    rw [List.forall_mem_cons, List.forall_mem_singleton]
    exact ⟨⟨_, _, by decide, rfl⟩, ⟨_, _, by decide, rfl⟩⟩
  case proofs =>
    rw [hsections]
    obtain ⟨i, proof, hproof, -⟩ := h.signs.exists_proof List.mem_cons_self
    exact List.ne_nil_of_mem hproof
  case issuers => rw [hsections]
  case events =>
    rw [hsections]
    exact List.cons_ne_nil _ _
  case evidence =>
    rw [hsections]
    exact List.cons_ne_nil _ _

end

/-- The revisions that the metadata of an action covers are valid. -/
structure FilesValid (host : Host) (relay : RelayService) (files : ActionFiles) : Prop where
  encodes : ∀ metadata, files.metadata = some metadata → metadata.Encodes
  revisions : ∀ n, 1 ≤ n → n ≤ committedRevision files → ∃ bundle,
    revisionOf files n = some (.obj bundle) ∧ ValidBundle host relay (seenEvents files) bundle

/-- What a call writes is valid, and the events that it was made from are remembered. -/
inductive Writer.Valid (host : Host) (relay : RelayService) (store : Store) : Writer → Prop where
  | create {a : NewAction} {generatedAt : Option JsString}
      (hvalid : ValidBundle host relay [] a.bundle) (hencodes : a.metadata.Encodes) :
      Writer.Valid host relay store (.create a generatedAt)
  | append {r : NewRevision} {source : Option (Delivery × Snapshot)} {seen : List JsString}
      {eventId : JsString} (hvalid : ValidBundle host relay (seen ++ [eventId]) r.bundle)
      (hremembered : r.remembered = some eventId)
      (hseen : seen ⊆ seenEvents (store.actions (actionKey host r.actionId))) :
      Writer.Valid host relay store (.append r source)

section

variable {host : Host} {relay : RelayService} {store store' : Store} {files : ActionFiles}
  {writer : Writer} {metadata : Metadata}

theorem Metadata.Encodes.stored (h : metadata.Encodes) : metadata.stored.Encodes :=
  ⟨h.ruleset, wellFormedText_cloneMembers h.correlations⟩

theorem Writer.Valid.mono (h : writer.Valid host relay store)
    (hseen : ∀ key, seenEvents (store.actions key) ⊆ seenEvents (store'.actions key)) :
    writer.Valid host relay store' := by
  cases h with
  | create hvalid hencodes => exact .create hvalid hencodes
  | append hvalid hremembered hold =>
    exact .append hvalid hremembered (List.Subset.trans hold (hseen _))

/-- What a call writes is valid together with the metadata that it writes. -/
theorem Writer.Valid.written {key : JsString} (h : writer.Valid host relay store)
    (hkey : paths host (.actionId writer.actionId) = .ok key)
    (hextends : writer.Extends (store.actions key) metadata)
    (hencodes : ∀ existing, (store.actions key).metadata = some existing → existing.Encodes) :
    ValidBundle host relay metadata.seenUpstreamEventIds writer.bundle ∧ metadata.Encodes := by
  cases h with
  | create hvalid hnew =>
    obtain ⟨-, rfl⟩ := hextends
    exact ⟨hvalid, hnew⟩
  | @append r source seen eventId hvalid hremembered hseen =>
    obtain ⟨existing, hexisting, -, rfl⟩ := hextends
    have hold := hencodes existing hexisting
    refine ⟨hvalid.mono ?_, hold.ruleset, hold.correlations⟩
    rw [show actionKey host r.actionId = key from (paths_eq hkey).symm, seenEvents,
      hexisting] at hseen
    show _ ⊆ existing.seenUpstreamEventIds ++ r.remembered.toList
    rw [hremembered]
    exact List.append_subset.mpr ⟨List.subset_append_of_subset_left _ hseen,
      List.subset_append_right _ _⟩

/-- The revisions of an action stay valid when a call writes a valid one. -/
theorem FilesValid.afterWrite (h : FilesValid host relay files)
    (hextends : writer.Extends files metadata) {next : RevisionPart}
    (hnext : next.StillThere files writer metadata)
    (hwritten : ValidBundle host relay metadata.seenUpstreamEventIds writer.bundle ∧
      metadata.Encodes) : FilesValid host relay (files.afterWrite writer metadata next) := by
  have hrevision := hextends.revision
  have hgrows := grows_afterWrite hextends next
  have hseen := seenEvents_afterWrite hextends next
  have hold (n : Nat) (hpositive : 1 ≤ n) (hn : n ≤ committedRevision files) : ∃ bundle,
      revisionOf (files.afterWrite writer metadata next) n = some (.obj bundle) ∧
        ValidBundle host relay (seenEvents (files.afterWrite writer metadata next)) bundle := by
    obtain ⟨bundle, hbundle, hvalid⟩ := h.revisions n hpositive hn
    exact ⟨bundle, (hgrows.kept n hn).trans hbundle, hvalid.mono hseen⟩
  cases next with
  | bundle => exact ⟨h.encodes, hold⟩
  | current => exact ⟨h.encodes, hold⟩
  | metadata =>
    constructor
    · intro m hm
      rw [← Option.some.inj hm]
      exact hwritten.2.stored
    · intro n hpositive hn
      have hn' : n ≤ metadata.revision := hn
      by_cases heq : n = metadata.revision
      · refine ⟨writer.bundle, ?_, hwritten.1⟩
        rw [heq]
        exact hnext.1.trans (congrArg some hwritten.1.plain.clone_eq)
      · exact hold n hpositive (by omega)

end

/-- Metadata and a bundle that `getAction` has read: the bundle is valid and its events are those
that the metadata remembers. -/
structure Reads (host : Host) (relay : RelayService) (files : ActionFiles) (m : Metadata)
    (bundle : Members) : Prop where
  encodes : m.Encodes
  seen : m.seenUpstreamEventIds ⊆ seenEvents files
  valid : ValidBundle host relay m.seenUpstreamEventIds bundle

/-- What `getAction` has read is valid. -/
def Progress.Valid (host : Host) (relay : RelayService) (files : ActionFiles) : Progress → Prop
  | .start => True
  | .metadata m => ∃ bundle, Covers files m.revision (.obj bundle) ∧ Reads host relay files m bundle
  | .bundle m b => ∃ bundle, b = .obj bundle ∧ Reads host relay files m bundle

/-- What a call has read and what it writes is valid. -/
def Phase.Valid (host : Host) (relay : RelayService) (store : Store) : Phase → Prop
  | .queueing (.store writer) => writer.Valid host relay store
  | .waiting (.store writer) _ => writer.Valid host relay store
  | .reading (.append r source _) _ key progress =>
    (Writer.append r source).Valid host relay store ∧
      progress.Valid host relay (store.actions key)
  | .reading _ _ key progress => progress.Valid host relay (store.actions key)
  | .writing writer _ _ _ _ => writer.Valid host relay store
  | _ => True

/-- A request that the verifier accepts, or a webhook that fits what has been read for it. -/
def Event.Suits (host : Host) (p : Process) : Event → Prop
  | .start (.recordAction request) => request.WellPosed
  | .advance i => ∀ delivery actionId key m b current,
      p.calls[i]? = some (.reading (.webhook delivery) actionId key (.bundle m b)) →
        delivery.received.isDuplicate m = false →
          delivery.received.Fits host delivery.request ⟨m, b, current⟩
  | _ => True

section

variable {host : Host} {relay : RelayService} {store store' : Store} {locks : Locks JsString}

theorem Progress.Valid.mono {files files' : ActionFiles} {progress : Progress}
    (h : progress.Valid host relay files) (hgrows : Grows files files')
    (hseen : seenEvents files ⊆ seenEvents files') : progress.Valid host relay files' := by
  cases progress with
  | start => trivial
  | metadata m =>
    obtain ⟨bundle, hcovers, hreads⟩ := h
    exact ⟨bundle, hcovers.grows hgrows,
      { hreads with seen := List.Subset.trans hreads.seen hseen }⟩
  | bundle m b =>
    obtain ⟨bundle, hbundle, hreads⟩ := h
    exact ⟨bundle, hbundle, { hreads with seen := List.Subset.trans hreads.seen hseen }⟩

/-- What a call has read and what it writes stays valid. -/
theorem Phase.Valid.mono {phase : Phase} (h : phase.Valid host relay store)
    (hgrows : ∀ key, Grows (store.actions key) (store'.actions key))
    (hseen : ∀ key, seenEvents (store.actions key) ⊆ seenEvents (store'.actions key)) :
    phase.Valid host relay store' := by
  cases phase with
  | queueing job =>
    cases job with
    | store writer => exact Writer.Valid.mono h hseen
    | link _ _ _ => trivial
  | waiting job ticket =>
    cases job with
    | store writer => exact Writer.Valid.mono h hseen
    | link _ _ _ => trivial
  | reading reader actionId key progress =>
    cases reader with
    | append r source ticket => exact ⟨h.1.mono hseen, h.2.mono (hgrows key) (hseen key)⟩
    | _ => exact Progress.Valid.mono h (hgrows key) (hseen key)
  | writing writer ticket key metadata next => exact Writer.Valid.mono h hseen
  | _ => trivial

/-- A well-posed request starts a call that writes a valid bundle. -/
theorem Begins.valid {request : CallRequest} {phase : Phase}
    (h : Begins host relay request phase) (hserved : (Event.start request).Served)
    (hsuits : ∀ posed, request = .recordAction posed → posed.WellPosed) (hrelay : relay.WellNamed)
    (hmatch : MatchingKey host.toRuntime (relayKey relay) relay.key.privateKeyPem)
    (store : Store) : phase.Valid host relay store := by
  cases h with
  | @recordAction request a hprepared =>
    obtain ⟨-, -, hcorrelations, -⟩ := prepareAction_eq_ok hprepared
    obtain ⟨parts, hparts⟩ := prepareAction_prepared hprepared
    have hposed := hsuits request rfl
    refine .create (hparts.validBundle hrelay hmatch hposed) ⟨?_, ?_⟩
    · show wellFormed a.ruleset = true
      rw [hparts.ruleset]
      decide
    · show (Json.obj a.correlations).WellFormedText
      rw [hcorrelations]
      cases hget : get (some request.input) (js "correlations") with
      | none => exact wellFormedText_obj_iff.mpr fun m hm ↦ (List.not_mem_nil hm).elim
      | some v =>
        have hv := hposed.correlations v hget
        cases v with
        | obj ms => exact hv
        | _ => exact wellFormedText_obj_iff.mpr fun m hm ↦ (List.not_mem_nil hm).elim
  | createAction => exact hserved.elim
  | appendRevision => exact hserved.elim
  | _ => trivial

/-- What `getAction` reads first. -/
theorem FilesValid.reads {files : ActionFiles} (h : FilesValid host relay files)
    (hfiles : FilesOk files) {metadata : Metadata} (hmetadata : files.metadata = some metadata) :
    (Progress.metadata metadata).Valid host relay files := by
  have hcommitted : committedRevision files = metadata.revision := by
    rw [committedRevision, hmetadata]
    rfl
  have hseen : seenEvents files = metadata.seenUpstreamEventIds := by
    rw [seenEvents, hmetadata]
    rfl
  have hpositive := hfiles.positive metadata hmetadata
  obtain ⟨bundle, hbundle, hvalid⟩ := h.revisions metadata.revision hpositive hcommitted.ge
  refine ⟨bundle, ⟨hpositive, hcommitted.ge, hbundle⟩, h.encodes metadata hmetadata, ?_, ?_⟩
  · rw [hseen]
    exact List.Subset.refl _
  · rwa [hseen] at hvalid

/-- A webhook that fits what was read for it is made into a valid revision. -/
theorem writerValid_of_prepared {delivery : Delivery} {actionId : IndexValue} {key : JsString}
    {metadata : Metadata} {bundle : Json} {current : CurrentSummary} {r : NewRevision}
    (hchecked : delivery.Checked host relay) (hkey : paths host actionId = .ok key)
    (htext : wellFormed actionId.text = true)
    (hprogress : (Progress.bundle metadata bundle).Valid host relay (store.actions key))
    (hprepared : prepareRevision host relay delivery.request delivery.received actionId.text
      ⟨metadata, bundle, current⟩ = .ok r)
    (hfits : delivery.received.Fits host delivery.request ⟨metadata, bundle, current⟩)
    (hrelay : relay.WellNamed)
    (hmatch : MatchingKey host.toRuntime (relayKey relay) relay.key.privateKeyPem) :
    (Writer.append r (some (delivery, ⟨metadata, bundle, current⟩))).Valid host relay store := by
  obtain ⟨webhook, hreceived⟩ := hchecked
  obtain ⟨hactionId, parts, hparts⟩ := prepareRevision_prepared hprepared
  obtain ⟨members, rfl, hreads⟩ := hprogress
  have hextendable : Extendable host relay ⟨metadata, .obj members, current⟩ :=
    { hreads.valid with
      bundle_eq := rfl
      encodes := hreads.encodes }
  have hne : actionId.text ≠ [] := by
    cases actionId with
    | actionId id =>
      rw [paths] at hkey
      split at hkey
      · next hlength =>
        rintro rfl
        exact absurd hlength.1 (by decide)
      · cases hkey
    | inherited => cases hkey
  have hremembered : r.remembered = some parts.eventId := by
    rw [NewRevision.remembered, hparts.upstreamEventId]
    apply if_neg
    intro hempty
    apply hfits.eventId
    rw [hparts.eventId, hempty]
  refine .append (hparts.validBundle hreceived hextendable ?_ hrelay hmatch hfits) hremembered ?_
  · rw [hactionId]
    exact ⟨hne, htext⟩
  · rw [hactionId, ← paths_text hkey]
    exact hreads.seen

/-- What a call that takes a step has read and writes is valid. -/
theorem valid_of_advances {phase : Phase} {stepped : Stepped} {ids : Set JsString}
    (h : phase.Valid host relay store) (hcall : CallOk host store phase)
    (hmade : phase.Made host relay) (hknown : phase.Known ids)
    (hids : ∀ id ∈ ids, wellFormed id = true) (hfiles : ∀ key, FilesOk (store.actions key))
    (hvalid : ∀ key, FilesValid host relay (store.actions key)) (hrelay : relay.WellNamed)
    (hmatch : MatchingKey host.toRuntime (relayKey relay) relay.key.privateKeyPem)
    (hfits : ∀ delivery actionId key m b current,
      phase = .reading (.webhook delivery) actionId key (.bundle m b) →
        delivery.received.isDuplicate m = false →
          delivery.received.Fits host delivery.request ⟨m, b, current⟩)
    (hadvance : Advances host relay store locks phase stepped) :
    stepped.phase.Valid host relay store := by
  cases hadvance with
  | @enqueue job => cases job <;> exact h
  | enterCreate _ _ _ => exact h
  | enterAppend _ _ => exact ⟨h, trivial⟩
  | @readMetadata reader _ key metadata hmetadata =>
    have hreads := (hvalid key).reads (hfiles key) hmetadata
    cases reader with
    | append r source ticket => exact ⟨h.1, hreads⟩
    | _ => exact hreads
  | @readBundle reader _ key metadata bundle hbundle =>
    have hread (hprogress : (Progress.metadata metadata).Valid host relay (store.actions key)) :
        (Progress.bundle metadata bundle).Valid host relay (store.actions key) := by
      obtain ⟨members, hcovers, hreads⟩ := hprogress
      have hcontent := hcovers.content
      exact ⟨members, Option.some.inj (hbundle.symm.trans hcontent), hreads⟩
    cases reader with
    | append r source ticket => exact ⟨h.1, hread h.2⟩
    | _ => exact hread h
  | readPrepared hcurrent hnew hprepared =>
    exact writerValid_of_prepared hmade.1 hcall (hids _ hknown) h hprepared
      (hfits _ _ _ _ _ _ rfl hnew) hrelay hmatch
  | readFresh _ _ => exact h.1
  | writeBundle => exact h
  | writeCurrent => exact h
  | _ => trivial

end

/-! ### Runs -/

/-- A process whose revisions are valid. -/
structure ValidOk (host : Host) (relay : RelayService) (p : Process) : Prop where
  files : ∀ key, FilesValid host relay (p.store.actions key)
  calls : ∀ (i : Nat) phase, p.calls[i]? = some phase → phase.Valid host relay p.store

section

variable {host : Host} {relay : RelayService} {ids : Set JsString} {p q : Process} {event : Event}

theorem validOk_fresh : ValidOk host relay (.fresh .empty) where
  files := fun key ↦ ⟨nofun, fun n hpositive hn ↦ absurd hn (Nat.not_le.mpr hpositive)⟩
  calls := fun i phase h ↦ by simp [Process.fresh] at h

/-- An event keeps the events that the metadata of an action remembers. -/
theorem Orderly.seenEvents_subset (h : Orderly host ids p) (hstep : Steps host relay p event q)
    (key : JsString) : seenEvents (p.store.actions key) ⊆ seenEvents (q.store.actions key) := by
  cases hstep with
  | start => exact List.Subset.refl _
  | crash => exact List.Subset.refl _
  | advance hcall hadvance =>
    cases storeStep_of_advances hadvance with
    | same _ hactions =>
      rw [hactions]
      exact List.Subset.refl _
    | @write writer ticket written metadata next hphase hactions =>
      subst hphase
      rw [hactions]
      by_cases hkey : key = written
      · subst hkey
        rw [actions_update_self]
        exact seenEvents_afterWrite (h.calls _ _ hcall).2.1 next
      · rw [actions_update_ne hkey]
        exact List.Subset.refl _

/-- Every event that suits keeps the revisions valid. -/
theorem ValidOk.step (h : ValidOk host relay p) (hservice : ServiceOk host relay ids p)
    (hids : ∀ id ∈ ids, wellFormed id = true) (hserved : event.Served)
    (hsuits : event.Suits host p) (hrelay : relay.WellNamed)
    (hmatch : MatchingKey host.toRuntime (relayKey relay) relay.key.privateKeyPem)
    (hstep : Steps host relay p event q) : ValidOk host relay q := by
  have horderly := hservice.orderly
  have hgrows := fun key ↦ horderly.grows hstep key
  have hseen := fun key ↦ horderly.seenEvents_subset hstep key
  constructor
  · intro key
    cases hstep with
    | start => exact h.files key
    | crash => exact h.files key
    | advance hcall hadvance =>
      cases storeStep_of_advances hadvance with
      | same _ hactions =>
        rw [hactions]
        exact h.files key
      | @write writer ticket written metadata next hphase hactions =>
        subst hphase
        rw [hactions]
        by_cases hkey : key = written
        · subst hkey
          rw [actions_update_self]
          obtain ⟨hpath, hextends, hnext⟩ := horderly.calls _ _ hcall
          have hwriter : writer.Valid host relay p.store := h.calls _ _ hcall
          exact (h.files key).afterWrite hextends hnext
            (hwriter.written hpath hextends (h.files key).encodes)
        · rw [actions_update_ne hkey]
          exact h.files key
  · intro i phase hi
    cases hstep.origin hi with
    | begun hbegins hstore =>
      refine hbegins.valid hserved (fun posed heq ↦ ?_) hrelay hmatch q.store
      subst heq
      exact hsuits
    | @stepped _ before stepped hcall hadvance hstore =>
      have hvalid : stepped.phase.Valid host relay p.store := by
        refine valid_of_advances (h.calls i before hcall) (horderly.calls i before hcall)
          (hservice.served.calls i before hcall) (horderly.known.calls i before hcall) hids
          horderly.files h.files hrelay hmatch ?_ hadvance
        intro delivery actionId key m b current heq
        exact hsuits delivery actionId key m b current (heq ▸ hcall)
      exact hvalid.mono hgrows hseen
    | kept _ hcall => exact (h.calls i phase hcall).mono hgrows hseen
    | @crashed _ old hcall hstore => cases old <;> trivial

/-- In every run of the service whose requests are well posed and whose webhooks fit what is read
for them, every revision that the metadata of an action covers verifies as VALID, and so does the
bundle of every snapshot that a call returns. -/
theorem stored_revisions_valid (host : Host) (relay : RelayService) (ids : Set JsString)
    (hids : ∀ id ∈ ids, wellFormed id = true) (hsha : Set.InjOn host.sha256 (utf8 '' ids))
    (hrelay : relay.WellNamed)
    (hmatch : MatchingKey host.toRuntime (relayKey relay) relay.key.privateKeyPem) (p : Process)
    (hrun : Runs (Process.step host relay)
      (fun s event ↦ event.Writes ids ∧ event.Served ∧ event.Suits host s) (.fresh .empty) p) :
    (∀ key n, 1 ≤ n → n ≤ committedRevision (p.store.actions key) → ∃ bundle,
      revisionOf (p.store.actions key) n = some bundle ∧
        ∃ result, verifyBundle host.toRuntime bundle = .ok result ∧ result.status = .valid) ∧
    ∀ (i : Nat) actionId found, p.calls[i]? = some (.settled (.snapshot actionId found)) →
      ∃ result, verifyBundle host.toRuntime found.bundle = .ok result ∧
        result.status = .valid := by
  have hkeys := injOn_actionKey (injOn_utf8.mono hids) hsha
  have hinv : ServiceOk host relay ids p ∧ ValidOk host relay p := by
    apply hrun.keeps _ ⟨serviceOk_fresh, validOk_fresh⟩
    rintro s event t ⟨hservice, hvalid⟩ ⟨hwrites, hserved, hsuits⟩ hstep
    have hsteps := steps_of_step hstep
    exact ⟨hservice.step hkeys hwrites hserved hsteps,
      hvalid.step hservice hids hserved hsuits hrelay hmatch hsteps⟩
  have hrevisions (key : JsString) (n : Nat) (hpositive : 1 ≤ n)
      (hn : n ≤ committedRevision (p.store.actions key)) : ∃ bundle,
        revisionOf (p.store.actions key) n = some bundle ∧
          ∃ result, verifyBundle host.toRuntime bundle = .ok result ∧ result.status = .valid := by
    obtain ⟨bundle, hbundle, hvalid⟩ := (hinv.2.files key).revisions n hpositive hn
    exact ⟨.obj bundle, hbundle, hvalid.verified⟩
  refine ⟨hrevisions, fun i actionId found hcall ↦ ?_⟩
  have hcovers : Covers (p.store.actions (actionKey host actionId)) found.metadata.revision
      found.bundle := hinv.1.covered i _ hcall
  obtain ⟨bundle, hbundle, hverified⟩ := hrevisions _ _ hcovers.positive hcovers.committed
  rw [hcovers.content] at hbundle
  cases hbundle
  exact hverified

end

/-! ### A run with two webhooks -/

/-- Two texts that differ. -/
def differ : Option Json → Option Json → Bool
  | some (.str s), some (.str t) => s ≠ t
  | _, _ => false

theorem ne_of_differ {v w : Option Json} (h : differ v w = true) : v ≠ w := by
  rintro rfl
  unfold differ at h
  split at h
  · exact absurd rfl (of_decide_eq_true h)
  · cases h

def hasFourDigitYear (now : Int) : Bool :=
  100 ≤ (utcFields now).year && (utcFields now).year ≤ 9999

/-- A check that a webhook fits what has been read for it. -/
def ReceivedWebhook.fits (r : ReceivedWebhook) (host : Host) (w : WebhookRequest) (m : Metadata)
    (b : Json) : Bool :=
  w.nowAtRecording.all hasFourDigitYear && w.nowAtRevision.all hasFourDigitYear &&
  (r.providerTime.all fun t ↦ hasFourDigitYear t && w.nowAtRecording.all fun now ↦ t ≤ now) &&
  r.refundId ≠ [] &&
  (r.eventId.all fun id ↦ id ≠ [] && m.seenUpstreamEventIds.all fun seen ↦
    normalizedId seen ≠ normalizedId id && safeId host seen ≠ safeId host id) &&
  match linkEvents host (lastEventDigest b) r.observation.events with
  | .ok newEvents => newEvents.all fun event ↦
      (itemsOf (get (some (.obj event)) (js "parent_event_digests"))).all fun parent ↦
        differ (get (some parent) (js "value")) (declaredValue (.obj event))
  | .error _ => true

theorem fits_of_check {r : ReceivedWebhook} {host : Host} {w : WebhookRequest} {m : Metadata}
    {b : Json} (h : r.fits host w m b = true) (current : CurrentSummary) :
    r.Fits host w ⟨m, b, current⟩ := by
  simp only [ReceivedWebhook.fits, Bool.and_eq_true, Option.all_eq_true, decide_eq_true_eq,
    hasFourDigitYear, List.all_eq_true] at h
  obtain ⟨⟨⟨⟨⟨hrecording, hrevision⟩, hprovider⟩, hrefund⟩, hevent⟩, hparents⟩ := h
  constructor
  case recordingClock => exact hrecording
  case revisionClock => exact hrevision
  case providerTime => exact fun t now ht hnow ↦ ⟨(hprovider t ht).1, (hprovider t ht).2 now hnow⟩
  case refundId => exact hrefund
  case eventId => exact fun hid ↦ (hevent [] hid).1 rfl
  case fresh => exact fun id hid seen hseen ↦ (hevent id hid).2 seen hseen
  case parents =>
    intro newEvents hlink event hevent parent hparent
    simp only [hlink, List.all_eq_true] at hparents
    exact ne_of_differ (hparents event hevent parent hparent)

/-- A check that a webhook which is prepared in a step fits. -/
def Event.suits (host : Host) (p : Process) : Event → Bool
  | .advance i =>
    match p.calls[i]? with
    | some (.reading (.webhook delivery) _ _ (.bundle m b)) =>
      delivery.received.isDuplicate m || delivery.received.fits host delivery.request m b
    | _ => true
  | _ => true

theorem suits_of_check {host : Host} {p : Process} {event : Event}
    (hposed : ∀ request, event = .start (.recordAction request) → request.WellPosed)
    (h : event.suits host p = true) : event.Suits host p := by
  cases event with
  | start request =>
    cases request with
    | recordAction request => exact hposed request rfl
    | _ => trivial
  | advance i =>
    intro delivery actionId key m b current hcall hnew
    rw [Event.suits, hcall] at h
    dsimp only at h
    rw [hnew, Bool.false_or] at h
    exact fits_of_check h current
  | crash => trivial

/-- The signature of an input under the sample key; of an input that is not signed, a text of the
length of a signature. -/
def paddedSignature (input : List UInt8) : List UInt8 :=
  let signature := relaySignature input
  if signature.length = 64 then signature else List.replicate 64 0

/-- The sample host with signatures of every input. -/
def signingHost : Host :=
  { sampleHost with
    sign := fun input _ ↦ paddedSignature input
    verify := fun input _ signature ↦ .ok (decide (signature = paddedSignature input)) }

private theorem validRunFacts :
    (runChecked (Process.step signingHost sampleRelay)
      (fun p event ↦ (event.writesOnly (js "a1") && event.isServed) && event.suits signingHost p)
      (.fresh .empty) (firstAppendedRun ++ secondAppendedRun)).any (fun p ↦
        committedRevision (p.store.actions (actionKey signingHost (js "a1"))) = 3) = true := by
  decide +kernel

private theorem signingHost_matches :
    MatchingKey signingHost.toRuntime (relayKey sampleRelay) sampleRelay.key.privateKeyPem := by
  have hlength (input : List UInt8) : (paddedSignature input).length = 64 := by
    unfold paddedSignature
    dsimp only
    split
    · next h => exact h
    · rfl
  have hprivate : signingHost.createPrivateKey sampleRelay.key.privateKeyPem =
      .ok ⟨js "ed25519", []⟩ := by simp [signingHost, sampleHost, sampleRelay]
  have hpublic : signingHost.createPublicKey (get (some (relayKey sampleRelay))
      (js "public_key")) = .ok ⟨js "ed25519", []⟩ := by
    have hpem : get (some (relayKey sampleRelay)) (js "public_key") =
        some (.str relayPublicPem) := rfl
    rw [hpem]
    simp [signingHost, sampleHost, isText]
  refine ⟨_, _, hprivate, rfl, hpublic, rfl, fun input ↦ ⟨hlength input, ?_⟩⟩
  exact congrArg Except.ok (decide_eq_true rfl)

private theorem validRelay_wellNamed : sampleRelay.WellNamed where
  issuerId := by decide
  keyId := by decide
  publicKey := by decide
  keyTexts := by decide
  issuerLine := List.all_eq_true.mp (by decide)
  keySharp := by decide

private theorem sampleAction_wellPosed : (sampleAction (jsonText "re_1")).WellPosed := by
  have hnamed {entityType entityId : String} (htype : js entityType ≠ [])
      (hid : js entityId ≠ []) : EntityNamed (some (sampleEntity entityType entityId)) := by
    constructor
    · intro heq
      exact htype (Json.str.inj (Option.some.inj heq))
    · intro heq
      exact hid (Json.str.inj (Option.some.inj heq))
  constructor
  case clock =>
    intro now hnow
    obtain rfl := Option.some.inj hnow
    decide
  case actor => exact hnamed (by decide : js "AI_AGENT" ≠ []) (by decide : js "agent-1" ≠ [])
  case subject => exact hnamed (by decide : js "REFUND" ≠ []) (by decide : js "re_1" ≠ [])
  case claim => rfl
  case occurredAt =>
    intro v now hv
    cases hv
  case correlations =>
    intro v hv
    obtain rfl := Option.some.inj hv
    rw [wellFormedText_obj_iff, List.forall_mem_singleton, jsonText, wellFormedText_str]
    decide

/-- Two webhooks that were both built on the first revision are appended, and the third revision
is valid. -/
theorem stored_revisions_valid_overlapping :
    ∃ (p : Process) (bundle : Json),
      committedRevision (p.store.actions (actionKey signingHost (js "a1"))) = 3 ∧
      revisionOf (p.store.actions (actionKey signingHost (js "a1"))) 3 = some bundle ∧
      ∃ result, verifyBundle signingHost.toRuntime bundle = .ok result ∧
        result.status = .valid := by
  obtain ⟨p, hp, hcommitted⟩ := (Option.any_eq_true _ _).mp validRunFacts
  rw [decide_eq_true_eq] at hcommitted
  have hgood (event : Event) (hevent : event ∈ firstAppendedRun ++ secondAppendedRun)
      (s : Process) (h : ((event.writesOnly (js "a1") && event.isServed) &&
        event.suits signingHost s) = true) :
      event.Writes {js "a1"} ∧ event.Served ∧ event.Suits signingHost s := by
    rw [Bool.and_eq_true, Bool.and_eq_true] at h
    refine ⟨writes_of_writesOnly h.1.1, served_of_isServed h.1.2, suits_of_check ?_ h.2⟩
    rintro request rfl
    simp [firstAppendedRun, secondAppendedRun] at hevent
    exact hevent ▸ sampleAction_wellPosed
  obtain ⟨hrevisions, -⟩ := stored_revisions_valid signingHost sampleRelay {js "a1"}
    (fun id hid ↦ hid ▸ by decide) injOn_bytes_singleton validRelay_wellNamed
    signingHost_matches p (runs_of_runChecked hgood hp)
  obtain ⟨bundle, hbundle, hverified⟩ := hrevisions (actionKey signingHost (js "a1")) 3
    (by decide) hcommitted.ge
  exact ⟨p, bundle, hcommitted, hbundle, hverified⟩

end TimeProofs.Relay
