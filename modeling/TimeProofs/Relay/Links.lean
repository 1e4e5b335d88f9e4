import TimeProofs.Relay.Atomicity
import TimeProofs.Relay.Locking

/-!
# The refund index

The index of the refunds is a map that is written once per refund: whatever calls interleave, a
refund keeps the action of its first link, and a later call for another action is refused. It is
read with `index[refundId]` on an object that inherits members, so the names of those members
read as links that nobody has made.
-/

namespace TimeProofs.Relay

open TimeProofs.Base TimeProofs.Json TimeProofs.Core TimeProofs.VerdictEngine
  TimeProofs.StripeConnector

theorem lookup_cons {α : Type} (entry : JsString × α) (table : List (JsString × α))
    (key : JsString) :
    lookup (entry :: table) key = if entry.1 = key then some entry.2 else lookup table key := by
  rw [lookup, List.find?_cons]
  by_cases h : entry.1 = key
  · simp [h]
  · simp [h, lookup]

/-- The first entry of a key counts. -/
theorem lookup_append {α : Type} (table more : List (JsString × α)) (key : JsString) :
    lookup (table ++ more) key = (lookup table key).or (lookup more key) := by
  induction table with
  | nil => rfl
  | cons entry rest ih =>
    rw [List.cons_append, lookup_cons, lookup_cons, ih]
    split <;> rfl

theorem lookup_setIndex (index : List (JsString × JsString)) (refundId actionId key : JsString) :
    lookup (setIndex index refundId actionId) key =
      if refundId = key then some actionId else lookup index key := by
  induction index with
  | nil => exact lookup_cons _ _ _
  | cons entry rest ih =>
    obtain ⟨name, linked⟩ := entry
    rw [setIndex]
    split
    · next hname =>
      subst hname
      rw [lookup_cons, lookup_cons]
      split <;> rfl
    · next hname =>
      rw [lookup_cons, lookup_cons, ih]
      by_cases hkey : name = key
      · rw [if_pos hkey, if_pos hkey, if_neg fun heq ↦ hname (hkey.trans heq.symm)]
      · rw [if_neg hkey, if_neg hkey]

/-- A call that links a refund names an action. -/
def Event.NamesActions : Event → Prop
  | .start (.registerStripeRefund _ actionId) => actionId ≠ []
  | _ => True

/-- The link that an event makes. -/
def linkOf (p : Process) : Event → Option (JsString × JsString)
  | .advance call =>
    match p.calls[call]? with
    | some (.linking refundId actionId _ _ _) => some (refundId, actionId)
    | _ => none
  | _ => none

/-- The links that a run makes, in their order. -/
def linksIn (host : Host) (relay : RelayService) : Process → List Event →
    List (JsString × JsString)
  | _, [] => []
  | p, event :: rest =>
    (linkOf p event).toList ++
      match p.step host relay event with
      | some q => linksIn host relay q rest
      | none => []

/-- The refund may be linked to the action: it is linked to no other. -/
def MayLink (links : List (JsString × JsString)) (refundId actionId : JsString) : Prop :=
  ∀ linked, lookup links refundId = some linked → linked = actionId

/-- What a call that links a refund has read. -/
def Phase.Links (store : Store) : Phase → Prop
  | .queueing (.link refundId actionId _) => refundId ≠ [] ∧ actionId ≠ []
  | .waiting (.link refundId actionId _) _ => refundId ≠ [] ∧ actionId ≠ []
  | .linking refundId actionId _ _ index =>
    actionId ≠ [] ∧ index = store.stripeIndex ∧ linkedElsewhere index refundId actionId = false
  | .writing (.create a _) _ _ _ _ => a.actionId ≠ []
  | _ => True

/-- The index of a process whose run has made the given links. -/
structure Linked (links : List (JsString × JsString)) (p : Process) : Prop where
  locks : LocksOk p
  index : ∀ refundId, lookup p.store.stripeIndex refundId = lookup links refundId
  named : ∀ refundId linked, lookup links refundId = some linked → linked ≠ []
  own : ∀ refundId ∈ objectPrototypeNames, lookup links refundId = none
  calls : ∀ (i : Nat) phase, p.calls[i]? = some phase → phase.Links p.store

/-- A refund is refused exactly when it is linked to another action, or inherited. -/
theorem linkedElsewhere_eq_false {index links : List (JsString × JsString)}
    {refundId actionId : JsString} (hindex : lookup index refundId = lookup links refundId)
    (hnamed : ∀ linked, lookup links refundId = some linked → linked ≠ []) :
    linkedElsewhere index refundId actionId = false ↔
      MayLink links refundId actionId ∧
        (lookup links refundId = none → refundId ∉ objectPrototypeNames) := by
  rw [linkedElsewhere, indexValue, hindex]
  cases hlinked : lookup links refundId with
  | none =>
    by_cases hinherited : refundId ∈ objectPrototypeNames
    · simp [MayLink, hlinked, hinherited]
    · simp [MayLink, hlinked, hinherited]
  | some linked =>
    have hne := hnamed linked hlinked
    simp [MayLink, hlinked, hne]

section

variable {host : Host} {relay : RelayService} {p q : Process} {event : Event}
  {links : List (JsString × JsString)}

/-- Only a call that is about to write the index depends on it. -/
theorem Phase.Links.frame {store store' : Store} {phase : Phase} (h : phase.Links store)
    (hsame : ∀ refundId actionId creating ticket index,
      phase = .linking refundId actionId creating ticket index →
        store'.stripeIndex = store.stripeIndex) : phase.Links store' := by
  cases phase with
  | linking refundId actionId creating ticket index =>
    exact ⟨h.1, hsame _ _ _ _ _ rfl ▸ h.2.1, h.2.2⟩
  | queueing job => cases job <;> exact h
  | waiting job ticket => cases job <;> exact h
  | writing writer ticket key metadata next => cases writer <;> exact h
  | _ => trivial

theorem begin_links {request : CallRequest} (h : (Event.start request).NamesActions)
    (store : Store) : (begin host relay request).Links store := by
  cases request with
  | registerStripeRefund refundId actionId =>
    cases refundId with
    | str refundId =>
      rw [begin]
      split
      · trivial
      · next hne => exact ⟨hne, h⟩
    | _ => trivial
  | createAction a => trivial
  | appendRevision r => trivial
  | _ =>
    rw [begin]
    split <;> trivial

theorem actionId_ne_nil {actionId key : JsString} (h : paths host (.actionId actionId) = .ok key) :
    actionId ≠ [] := by
  rintro rfl
  cases h

/-- What a call has read after a step that does not link. -/
theorem links_of_advances {store : Store} {locks : Locks JsString} {phase : Phase}
    {stepped : Stepped} (h : phase.Links store)
    (hadvance : Advances host relay store locks phase stepped) :
    stepped.phase.Links store := by
  cases hadvance with
  | @enqueue job => cases job <;> exact h
  | enterCreate _ hkey _ => exact actionId_ne_nil hkey
  | enterLink _ hfree => exact ⟨h.2, rfl, hfree⟩
  | @writeBundle writer _ _ _ => cases writer <;> exact h
  | @writeCurrent writer _ _ _ => cases writer <;> exact h
  | commitLink _ hne => exact ⟨hne, h⟩
  | _ => trivial

/-- Every event extends the links by the one that it makes. -/
theorem Linked.step (h : Linked links p) (hwrites : event.NamesActions)
    (hstep : Steps host relay p event q) : Linked (links ++ (linkOf p event).toList) q := by
  have hlocks := h.locks.step hstep
  have hkeep (hlink : linkOf p event = none) (hindex : q.store.stripeIndex = p.store.stripeIndex)
      (hcalls : ∀ (i : Nat) phase, q.calls[i]? = some phase → phase.Links p.store) :
      Linked (links ++ (linkOf p event).toList) q := by
    rw [hlink, Option.toList_none, List.append_nil]
    exact ⟨hlocks, hindex ▸ h.index, h.named, h.own,
      fun i phase hi ↦ (hcalls i phase hi).frame fun _ _ _ _ _ _ ↦ hindex⟩
  cases hstep with
  | start =>
    refine hkeep rfl rfl fun i phase hi ↦ ?_
    rcases getElem?_append_eq_some hi with ⟨-, rfl⟩ | hi
    · exact begin_links hwrites p.store
    · exact h.calls i phase hi
  | crash =>
    refine hkeep rfl rfl fun i phase hi ↦ ?_
    rw [List.getElem?_map, Option.map_eq_some_iff] at hi
    obtain ⟨old, -, rfl⟩ := hi
    cases old <;> trivial
  | @advance i phase stepped hcall hadvance =>
    have hphase := h.calls i phase hcall
    have hcalls (j : Nat) (other : Phase) (hj : (p.calls.set i stepped.phase)[j]? = some other) :
        other.Links p.store := by
      rcases getElem?_set_eq_some hj with ⟨-, rfl⟩ | ⟨-, hj⟩
      · exact links_of_advances hphase hadvance
      · exact h.calls j other hj
    cases hadvance with
    | @writeLink refundId actionId creating ticket index =>
      obtain ⟨hactionId, rfl, hfree⟩ := hphase
      obtain ⟨hmay, hfirst⟩ :=
        (linkedElsewhere_eq_false (h.index refundId) (h.named refundId)).mp hfree
      have hlink : linkOf p (.advance i) = some (refundId, actionId) := by rw [linkOf, hcall]
      have hlookup (key : JsString) : lookup (links ++ [(refundId, actionId)]) key =
          if refundId = key then some actionId else lookup links key := by
        rw [lookup_append, lookup_cons]
        split
        · next heq =>
          subst heq
          cases hlinked : lookup links refundId with
          | none => rfl
          | some linked => rw [Option.some_or, hmay linked hlinked]
        · exact Option.or_none
      rw [hlink, Option.toList_some]
      refine ⟨hlocks, fun key ↦ ?_, fun key linked hlinked ↦ ?_, fun key hkey ↦ ?_,
        fun j other hj ↦ ?_⟩
      · rw [hlookup, ← h.index]
        exact lookup_setIndex _ _ _ _
      · rw [hlookup] at hlinked
        split at hlinked
        · cases hlinked
          exact hactionId
        · exact h.named key linked hlinked
      · rw [hlookup, if_neg, h.own key hkey]
        rintro rfl
        exact hfirst (h.own refundId hkey) hkey
      · refine (hcalls j other hj).frame fun refundId' actionId' creating' ticket' index' heq ↦ ?_
        -- no other call is inside the lock of the index
        subst heq
        rcases getElem?_set_eq_some hj with ⟨-, heq⟩ | ⟨hne, hj⟩
        · cases heq
        · exact absurd (h.locks.exclusive hj hcall List.mem_cons_self List.mem_cons_self) hne
    | _ =>
      refine hkeep ?_ rfl hcalls
      rw [linkOf, hcall]

theorem linked_fresh : Linked [] (.fresh .empty) where
  locks := locksOk_fresh _
  index := fun refundId ↦ rfl
  named := fun refundId linked h ↦ by cases h
  own := fun refundId _ ↦ rfl
  calls := fun i phase h ↦ by simp [Process.fresh] at h

/-- A run makes the links that it says. -/
theorem run_linked {events : List Event} (h : runEvents (Process.step host relay) p events = some q)
    (hevents : ∀ event ∈ events, event.NamesActions) (hlinked : Linked links p) :
    Linked (links ++ linksIn host relay p events) q := by
  induction events generalizing p links with
  | nil =>
    cases h
    rwa [linksIn, List.append_nil]
  | cons event rest ih =>
    rw [runEvents] at h
    cases hstep : p.step host relay event with
    | none => simp [hstep] at h
    | some middle =>
      simp only [hstep] at h
      have hnext := hlinked.step (hevents event List.mem_cons_self) (steps_of_step hstep)
      have hrest := ih h
        (fun other hother ↦ hevents other (List.mem_cons_of_mem event hother)) hnext
      simp only [linksIn, hstep, ← List.append_assoc]
      exact hrest

theorem linksIn_append {before : List Event} (h : runEvents (Process.step host relay) p before =
    some q) (after : List Event) :
    linksIn host relay p (before ++ after) =
      linksIn host relay p before ++ linksIn host relay q after := by
  induction before generalizing p with
  | nil =>
    cases h
    rfl
  | cons event rest ih =>
    rw [runEvents] at h
    cases hstep : p.step host relay event with
    | none => simp [hstep] at h
    | some middle =>
      simp only [hstep] at h
      simp only [List.cons_append, linksIn, hstep, ih h, List.append_assoc]

end

/-! ### The law of the index -/

/-- What the index promises of a refund, in a state whose run has made the given links: the
refund is found under its first link, and a registration that gets the lock links the refund
exactly when it is linked to no other action. -/
structure WriteOnce (host : Host) (relay : RelayService) (links : List (JsString × JsString))
    (p : Process) (refundId : JsString) : Prop where
  found : findByStripeRefundId refundId p.store =
    (.resolved ((lookup links refundId).map .actionId), p.store)
  decided : ∀ i actionId creating ticket,
    p.calls[i]? = some (.waiting (.link refundId actionId creating) ticket) →
    p.locks.canEnter ticket = true → ∃ q phase, p.step host relay (.advance i) = some q ∧
      q.calls[i]? = some phase ∧
      (MayLink links refundId actionId ∧
          (∃ index, phase = .linking refundId actionId creating ticket index) ∨
        ¬MayLink links refundId actionId ∧
          phase = .settled (.rejected (refundLinkedElsewhere refundId)))
  succeeds : ∀ i actionId creating ticket index,
    p.calls[i]? = some (.linking refundId actionId creating ticket index) →
    MayLink links refundId actionId ∧ ∃ q, p.step host relay (.advance i) = some q ∧
      q.calls[i]? = some (.settled (linkResult host creating)) ∧
      findByStripeRefundId refundId q.store = (.resolved (some (.actionId actionId)), q.store)

/-- A link that has been found in a run stays. -/
def LinksStay (host : Host) (relay : RelayService) (events : List Event) (p : Process)
    (refundId : JsString) : Prop :=
  ∀ before after middle actionId, events = before ++ after →
    runEvents (Process.step host relay) (.fresh .empty) before = some middle →
    findByStripeRefundId refundId middle.store =
      (.resolved (some (.actionId actionId)), middle.store) →
    findByStripeRefundId refundId p.store = (.resolved (some (.actionId actionId)), p.store)

section

variable {host : Host} {relay : RelayService} {p q : Process}
  {links : List (JsString × JsString)} {refundId : JsString}

theorem Linked.found (h : Linked links p) (hown : refundId ∉ objectPrototypeNames) :
    findByStripeRefundId refundId p.store =
      (.resolved ((lookup links refundId).map .actionId), p.store) := by
  rw [findByStripeRefundId, Call.run_read, indexValue, h.index]
  cases lookup links refundId with
  | none => rw [if_neg hown, Option.map_none]
  | some linked => rfl

theorem Linked.writeOnce (h : Linked links p) (hown : refundId ∉ objectPrototypeNames) :
    WriteOnce host relay links p refundId where
  found := h.found hown
  decided := by
    intro i actionId creating ticket hcall henter
    have hfree := @linkedElsewhere_eq_false p.store.stripeIndex links refundId actionId
      (h.index refundId) (h.named refundId)
    have hstep : p.step host relay (.advance i) =
        some ⟨(enter host p.store p.locks (.link refundId actionId creating) ticket).store,
          (enter host p.store p.locks (.link refundId actionId creating) ticket).locks,
          p.calls.set i
            (enter host p.store p.locks (.link refundId actionId creating) ticket).phase⟩ := by
      rw [Process.step, hcall]
      simp only [advance, if_pos henter, Option.map_some]
    refine ⟨_, _, hstep, getElem?_set_self hcall _, ?_⟩
    cases helsewhere : linkedElsewhere p.store.stripeIndex refundId actionId with
    | false =>
      refine .inl ⟨(hfree.mp helsewhere).1, p.store.stripeIndex, ?_⟩
      simp [enter, helsewhere]
    | true =>
      refine .inr ⟨fun hmay ↦ ?_, ?_⟩
      · rw [hfree.mpr ⟨hmay, fun _ ↦ hown⟩] at helsewhere
        cases helsewhere
      · simp [enter, helsewhere, settle]
  succeeds := by
    intro i actionId creating ticket index hcall
    obtain ⟨-, rfl, hfree⟩ := h.calls i _ hcall
    obtain ⟨hmay, -⟩ := (linkedElsewhere_eq_false (h.index refundId) (h.named refundId)).mp hfree
    obtain ⟨q, hstep, hsettled⟩ : ∃ q, p.step host relay (.advance i) = some q ∧
        q.calls[i]? = some (.settled (linkResult host creating)) := by
      rw [Process.step, hcall]
      exact ⟨_, rfl, getElem?_set_self hcall _⟩
    have hwrites : (Event.advance i).NamesActions := trivial
    have hnext := h.step hwrites (steps_of_step hstep)
    refine ⟨hmay, q, hstep, hsettled, ?_⟩
    rw [hnext.found hown, linkOf, hcall, Option.toList_some, lookup_append, lookup_cons, if_pos rfl]
    cases hlinked : lookup links refundId with
    | none => rfl
    | some linked =>
      rw [Option.some_or, hmay linked hlinked]
      rfl

end

/-- In every run whose registrations name actions, whatever calls interleave, the index is a map
that is written once at a refund exactly when the refund's id is no name that every object
inherits. -/
theorem refund_links_write_once_iff (host : Host) (relay : RelayService) {events : List Event}
    {p : Process} (hevents : ∀ event ∈ events, event.NamesActions)
    (hrun : runEvents (Process.step host relay) (.fresh .empty) events = some p)
    (refundId : JsString) :
    WriteOnce host relay (linksIn host relay (.fresh .empty) events) p refundId ∧
        LinksStay host relay events p refundId ↔
      refundId ∉ objectPrototypeNames := by
  have hlinked := run_linked hrun hevents linked_fresh
  rw [List.nil_append] at hlinked
  constructor
  · rintro ⟨honce, -⟩ hinherited
    have hfound := honce.found
    rw [findByStripeRefundId, Call.run_read, indexValue, hlinked.index,
      hlinked.own refundId hinherited, if_pos hinherited] at hfound
    cases hfound
  · intro hown
    refine ⟨hlinked.writeOnce hown, ?_⟩
    rintro before after middle actionId rfl hbefore hfound
    have hmiddle := run_linked hbefore
      (fun event hevent ↦ hevents event (List.mem_append_left after hevent)) linked_fresh
    rw [List.nil_append] at hmiddle
    rw [hmiddle.found hown] at hfound
    have hfirst : (lookup (linksIn host relay (.fresh .empty) before) refundId).map
        IndexValue.actionId = some (.actionId actionId) := by
      injection hfound with hresolved _
      injection hresolved
    rw [hlinked.found hown, linksIn_append hbefore, lookup_append]
    cases hlookup : lookup (linksIn host relay (.fresh .empty) before) refundId with
    | none =>
      rw [hlookup] at hfirst
      cases hfirst
    | some linked =>
      rw [hlookup] at hfirst
      rw [Option.some_or, hfirst]

/-- A registration of a refund that is named like an inherited member. -/
def inheritedRun : List Event :=
  .start (.registerStripeRefund (jsonText "constructor") (js "a1")) :: List.replicate 2 (.advance 0)

/-- Nothing has been linked: the registration is refused, and the refund is found all the same. -/
theorem inheritedRefund_refused : ∃ p,
    runEvents (Process.step sampleHost sampleRelay) (.fresh .empty) inheritedRun = some p ∧
      linksIn sampleHost sampleRelay (.fresh .empty) inheritedRun = [] ∧
      p.calls[0]? = some (.settled (.rejected (refundLinkedElsewhere (js "constructor")))) ∧
      findByStripeRefundId (js "constructor") p.store = (.resolved (some .inherited), p.store) :=
  ⟨_, rfl, rfl, rfl, rfl⟩

/-- Two registrations of one refund that interleave, for different actions. -/
def rivalRun : List Event :=
  [.start (.registerStripeRefund (jsonText "re_1") (js "a1")),
    .start (.registerStripeRefund (jsonText "re_1") (js "a2")), .advance 1, .advance 0, .advance 1,
    .advance 1, .advance 0]

theorem refund_links_write_once_iff_rival : ∃ p,
    runEvents (Process.step sampleHost sampleRelay) (.fresh .empty) rivalRun = some p ∧
      p.calls[0]? = some (.settled (.rejected (refundLinkedElsewhere (js "re_1")))) ∧
      p.calls[1]? = some (.settled .linked) ∧
      WriteOnce sampleHost sampleRelay (linksIn sampleHost sampleRelay (.fresh .empty) rivalRun) p
        (js "re_1") := by
  have hwrites : ∀ event ∈ rivalRun, event.NamesActions := by
    simp [rivalRun, Event.NamesActions]
    decide
  obtain ⟨p, hrun, hrefused, hlinked⟩ : ∃ p,
      runEvents (Process.step sampleHost sampleRelay) (.fresh .empty) rivalRun = some p ∧
        p.calls[0]? = some (.settled (.rejected (refundLinkedElsewhere (js "re_1")))) ∧
        p.calls[1]? = some (.settled .linked) := ⟨_, rfl, rfl, rfl⟩
  have hown : js "re_1" ∉ objectPrototypeNames := by decide
  exact ⟨p, hrun, hrefused, hlinked,
    ((refund_links_write_once_iff sampleHost sampleRelay hwrites hrun (js "re_1")).mpr hown).1⟩

end TimeProofs.Relay
