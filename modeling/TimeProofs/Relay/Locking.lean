import TimeProofs.Relay.Process

/-!
# The locks of a process

Who holds which lock: every call of a lock that has not been released belongs to one call of the
relay, and two calls of the relay are never inside the same lock at once.
-/

namespace TimeProofs.Relay

open TimeProofs.Base TimeProofs.Json TimeProofs.Core TimeProofs.VerdictEngine
  TimeProofs.StripeConnector

/-- The locks that a job holds before its own, with their names. -/
def Job.heldLocks : Job → List (Nat × JsString)
  | .store _ => []
  | .link _ _ creating => (creating.map fun c ↦ (c.ticket, c.action.actionId)).toList

/-- The locks that a call has asked for and not released, with their names. -/
def Phase.locked : Phase → List (Nat × JsString)
  | .queueing job => job.heldLocks
  | .waiting job ticket => (ticket, job.lock) :: job.heldLocks
  | .reading (.append r _ ticket) _ _ _ => [(ticket, r.actionId)]
  | .writing writer ticket _ _ _ => [(ticket, writer.actionId)]
  | .linking _ _ creating ticket _ =>
    (ticket, stripeIndexLock) ::
      (creating.map fun c ↦ (c.ticket, c.action.actionId)).toList
  | _ => []

/-- The locks that a call is inside of: all but the one that it waits for. -/
def Phase.entered : Phase → List (Nat × JsString)
  | .waiting job _ => job.heldLocks
  | phase => phase.locked

theorem map_fst_heldLocks (job : Job) : job.heldLocks.map Prod.fst = job.held := by
  cases job with
  | store writer => rfl
  | link refundId actionId creating => cases creating <;> rfl

theorem map_fst_locked (phase : Phase) : phase.locked.map Prod.fst = phase.tickets := by
  cases phase with
  | queueing job => exact map_fst_heldLocks job
  | waiting job ticket => exact congrArg (ticket :: ·) (map_fst_heldLocks job)
  | reading reader actionId key progress => cases reader <;> rfl
  | linking refundId actionId creating ticket index => cases creating <;> rfl
  | _ => rfl

theorem mem_tickets_iff {phase : Phase} {ticket : Nat} :
    ticket ∈ phase.tickets ↔ ∃ name, (ticket, name) ∈ phase.locked := by
  rw [← map_fst_locked, List.mem_map]
  constructor
  · rintro ⟨entry, hentry, heq⟩
    exact ⟨entry.2, heq ▸ hentry⟩
  · rintro ⟨name, hentry⟩
    exact ⟨_, hentry, rfl⟩

theorem entered_subset (phase : Phase) : phase.entered ⊆ phase.locked := by
  cases phase with
  | waiting job ticket => exact List.subset_cons_self _ _
  | _ => exact List.Subset.refl _

/-- What a step does to the locks: nothing, one more call of a lock, or the release of all that
the call holds. -/
inductive LockStep (locks : Locks JsString) (phase : Phase) (stepped : Stepped) : Prop where
  | same (hlocks : stepped.locks = locks) (hlocked : stepped.phase.locked = phase.locked)
      (hentered : ∀ entry ∈ stepped.phase.entered, entry ∈ phase.entered ∨
        locks.canEnter entry.1 = true)
  | enqueue {job : Job} (hphase : phase = .queueing job)
      (hlocks : stepped.locks = locks.enqueue job.lock)
      (hnext : stepped.phase = .waiting job locks.tickets.length)
  | release (hlocks : stepped.locks = locks.releaseAll phase.tickets)
      (hlocked : stepped.phase.locked = [])
      (hentered : ∀ entry ∈ phase.locked, entry ∈ phase.entered ∨
        locks.canEnter entry.1 = true)

/-- The locks of a call are open calls under their names, and those it is inside of may go on. -/
structure HoldsLocks (locks : Locks JsString) (phase : Phase) : Prop where
  isOpen : ∀ entry ∈ phase.locked, locks.Open entry.1
  named : ∀ entry ∈ phase.locked, locks.nameOf entry.1 = some entry.2
  entered : ∀ entry ∈ phase.entered, locks.canEnter entry.1 = true
  nodup : phase.tickets.Nodup

/-- Every lock that has not been released belongs to one call. -/
structure LocksOk (p : Process) : Prop where
  wellFormed : p.locks.WellFormed
  holds : ∀ (i : Nat) phase, p.calls[i]? = some phase → HoldsLocks p.locks phase
  distinct : ∀ (i j : Nat) phase phase', i ≠ j → p.calls[i]? = some phase →
    p.calls[j]? = some phase' → ∀ ticket ∈ phase.tickets, ticket ∉ phase'.tickets
  owned : ∀ ticket, p.locks.Open ticket → ∃ (i : Nat) (phase : Phase), p.calls[i]? = some phase ∧
    ticket ∈ phase.tickets

section

variable {host : Host} {relay : RelayService} {store : Store} {locks : Locks JsString}

/-- A call that does not wait is inside of all its locks. -/
private theorem entered_of_locked {phase : Phase} (h : phase.entered = phase.locked)
    (entry : Nat × JsString) (hentry : entry ∈ phase.locked) :
    entry ∈ phase.entered ∨ locks.canEnter entry.1 = true :=
  .inl (h ▸ hentry)

/-- A call that may go on from waiting enters its lock. -/
private theorem entered_of_waiting {job : Job} {ticket : Nat}
    (henter : locks.canEnter ticket = true) (entry : Nat × JsString)
    (hentry : entry ∈ (Phase.waiting job ticket).locked) :
    entry ∈ (Phase.waiting job ticket).entered ∨ locks.canEnter entry.1 = true := by
  rcases List.mem_cons.mp hentry with rfl | hheld
  · exact .inr henter
  · exact .inl hheld

theorem lockStep_of_advances {phase : Phase} {stepped : Stepped}
    (h : Advances host relay store locks phase stepped) : LockStep locks phase stepped := by
  cases h with
  | enqueue => exact .enqueue rfl rfl rfl
  | refuse henter => exact .release rfl rfl (entered_of_waiting henter)
  | enterCreate henter _ _ =>
    exact .same rfl rfl fun entry hentry ↦ entered_of_waiting henter entry hentry
  | enterAppend henter _ =>
    exact .same rfl rfl fun entry hentry ↦ entered_of_waiting henter entry hentry
  | enterLink henter _ =>
    exact .same rfl rfl fun entry hentry ↦ entered_of_waiting henter entry hentry
  | @readMetadata reader _ _ _ _ =>
    cases reader <;> exact .same rfl rfl fun entry hentry ↦ .inl hentry
  | @readBundle reader _ _ _ _ _ =>
    cases reader <;> exact .same rfl rfl fun entry hentry ↦ .inl hentry
  | readList _ => exact .same rfl rfl fun entry hentry ↦ .inl hentry
  | readPrepared _ _ _ => exact .same rfl rfl fun entry hentry ↦ .inl hentry
  | readFresh _ _ => exact .same rfl rfl fun entry hentry ↦ .inl hentry
  | writeBundle => exact .same rfl rfl fun entry hentry ↦ .inl hentry
  | writeCurrent => exact .same rfl rfl fun entry hentry ↦ .inl hentry
  | commitLink _ _ => exact .same rfl rfl fun entry hentry ↦ .inl hentry
  | findAction _ _ => exact .same rfl rfl fun entry hentry ↦ .inl hentry
  | listNames => exact .same rfl rfl fun entry hentry ↦ .inl hentry
  | listFile _ => exact .same rfl rfl fun entry hentry ↦ .inl hentry
  | readMissing => exact .release rfl rfl (entered_of_locked rfl)
  | readGet _ => exact .release rfl rfl (entered_of_locked rfl)
  | readDuplicate _ _ => exact .release rfl rfl (entered_of_locked rfl)
  | readUnprepared => exact .release rfl rfl (entered_of_locked rfl)
  | readAppended _ _ => exact .release rfl rfl (entered_of_locked rfl)
  | commitCreate _ => exact .release rfl rfl (entered_of_locked rfl)
  | commitAppend => exact .release rfl rfl (entered_of_locked rfl)
  | writeLink => exact .release rfl rfl (entered_of_locked rfl)
  | unlinked => exact .release rfl rfl (entered_of_locked rfl)
  | listMissing => exact .release rfl rfl (entered_of_locked rfl)
  | listed => exact .release rfl rfl (entered_of_locked rfl)

/-- A call that starts holds no lock. -/
theorem Begins.locked {request : CallRequest} {phase : Phase}
    (h : Begins host relay request phase) : phase.locked = [] := by
  cases h <;> rfl

theorem locked_crash (phase : Phase) : phase.crash.locked = [] := by
  cases phase <;> rfl

end

/-- What an event does: a call starts, a call takes a step, or the process crashes. -/
inductive Steps (host : Host) (relay : RelayService) (p : Process) : Event → Process → Prop where
  | start {request : CallRequest} : Steps host relay p (.start request)
      { p with calls := p.calls ++ [begin host relay request] }
  | advance {i : Nat} {phase : Phase} {stepped : Stepped} (hcall : p.calls[i]? = some phase)
      (hadvance : Advances host relay p.store p.locks phase stepped) :
      Steps host relay p (.advance i)
        { store := stepped.store, locks := stepped.locks, calls := p.calls.set i stepped.phase }
  | crash : Steps host relay p .crash
      { store := p.store, locks := .none, calls := p.calls.map Phase.crash }

theorem steps_of_step {host : Host} {relay : RelayService} {p q : Process} {event : Event}
    (h : p.step host relay event = some q) : Steps host relay p event q := by
  cases event with
  | start request =>
    cases h
    exact .start
  | advance i =>
    rw [Process.step] at h
    split at h
    · cases h
    · next phase hcall =>
      obtain ⟨stepped, hstepped, rfl⟩ := Option.map_eq_some_iff.mp h
      exact .advance hcall (advances_of_advance hstepped)
  | crash =>
    cases h
    exact .crash

/-- Where a call comes from that a process has after an event. -/
inductive CallOrigin (host : Host) (relay : RelayService) (p q : Process) :
    Event → Nat → Phase → Prop where
  | begun {i : Nat} {request : CallRequest} {phase : Phase}
      (hbegins : Begins host relay request phase) (hstore : q.store = p.store) :
      CallOrigin host relay p q (.start request) i phase
  | stepped {i : Nat} {phase : Phase} {stepped : Stepped} (hcall : p.calls[i]? = some phase)
      (hadvance : Advances host relay p.store p.locks phase stepped)
      (hstore : q.store = stepped.store) :
      CallOrigin host relay p q (.advance i) i stepped.phase
  | kept {event : Event} {i : Nat} {phase : Phase} (hne : event ≠ .crash)
      (hcall : p.calls[i]? = some phase) : CallOrigin host relay p q event i phase
  | crashed {i : Nat} {phase : Phase} (hcall : p.calls[i]? = some phase)
      (hstore : q.store = p.store) : CallOrigin host relay p q .crash i phase.crash

theorem Steps.origin {host : Host} {relay : RelayService} {p q : Process} {event : Event}
    (h : Steps host relay p event q) {i : Nat} {phase : Phase} (hi : q.calls[i]? = some phase) :
    CallOrigin host relay p q event i phase := by
  cases h with
  | start =>
    rcases getElem?_append_eq_some hi with ⟨-, rfl⟩ | hi
    · exact .begun (begins host relay _) rfl
    · exact .kept nofun hi
  | advance hcall hadvance =>
    rcases getElem?_set_eq_some hi with ⟨rfl, rfl⟩ | ⟨-, hi⟩
    · exact .stepped hcall hadvance rfl
    · exact .kept nofun hi
  | crash =>
    rw [List.getElem?_map, Option.map_eq_some_iff] at hi
    obtain ⟨old, hold, rfl⟩ := hi
    exact .crashed hold rfl

/-- A call that has ended stays so. -/
theorem Steps.settled {host : Host} {relay : RelayService} {p q : Process} {event : Event}
    (h : Steps host relay p event q) {i : Nat} {result : Result}
    (hi : p.calls[i]? = some (.settled result)) : q.calls[i]? = some (.settled result) := by
  cases h with
  | start =>
    show (p.calls ++ _)[i]? = _
    rw [List.getElem?_append_left (List.getElem?_eq_some_iff.mp hi).1, hi]
  | @advance j phase stepped hcall hadvance =>
    have hne : j ≠ i := by
      intro heq
      subst heq
      rw [hcall] at hi
      cases hi
      cases hadvance
    show (p.calls.set j stepped.phase)[i]? = _
    rw [List.getElem?_set_ne hne, hi]
  | crash =>
    show (p.calls.map Phase.crash)[i]? = _
    rw [List.getElem?_map, hi]
    rfl

/-! ### The invariant -/

theorem holdsLocks_of_locked_nil {locks : Locks JsString} {phase : Phase}
    (h : phase.locked = []) : HoldsLocks locks phase := by
  have hentered : phase.entered = [] := List.subset_nil.mp (h ▸ entered_subset phase)
  refine ⟨?_, ?_, ?_, ?_⟩
  · intro entry hentry
    rw [h] at hentry
    cases hentry
  · intro entry hentry
    rw [h] at hentry
    cases hentry
  · intro entry hentry
    rw [hentered] at hentry
    cases hentry
  · rw [← map_fst_locked, h]
    exact List.nodup_nil

theorem tickets_of_locked_nil {phase : Phase} (h : phase.locked = []) : phase.tickets = [] := by
  rw [← map_fst_locked, h]
  rfl

theorem locksOk_fresh (store : Store) : LocksOk (.fresh store) where
  wellFormed := Locks.wellFormed_none
  holds := fun i phase h ↦ by simp [Process.fresh] at h
  distinct := fun i j phase phase' _ h ↦ by simp [Process.fresh] at h
  owned := by
    intro ticket hopen
    exact absurd hopen.lt (Nat.not_lt_zero ticket)

section

variable {locks : Locks JsString} {phase : Phase}

theorem HoldsLocks.enqueue (h : HoldsLocks locks phase) (hwell : locks.WellFormed)
    (name : JsString) : HoldsLocks (locks.enqueue name) phase where
  isOpen := fun entry hentry ↦ (Locks.open_enqueue _ _ _).mpr (.inl (h.isOpen entry hentry))
  named := fun entry hentry ↦ Locks.nameOf_enqueue_of_some (h.named entry hentry)
  entered := fun entry hentry ↦ hwell.canEnter_enqueue name (h.entered entry hentry)
  nodup := h.nodup

/-- A call that asks for a lock holds it as a new one, which it is not inside of yet. -/
theorem HoldsLocks.waiting {job : Job} (h : HoldsLocks locks (.queueing job))
    (hwell : locks.WellFormed) :
    HoldsLocks (locks.enqueue job.lock) (.waiting job locks.tickets.length) where
  isOpen := by
    intro entry hentry
    rw [Locks.open_enqueue]
    rcases List.mem_cons.mp hentry with rfl | hheld
    · exact .inr rfl
    · exact .inl (h.isOpen entry hheld)
  named := by
    intro entry hentry
    rcases List.mem_cons.mp hentry with rfl | hheld
    · rw [Locks.nameOf_enqueue, if_pos rfl]
    · exact Locks.nameOf_enqueue_of_some (h.named entry hheld)
  entered := fun entry hentry ↦ hwell.canEnter_enqueue _ (h.entered entry hentry)
  nodup := by
    refine List.nodup_cons.mpr ⟨?_, h.nodup⟩
    intro hmem
    obtain ⟨name, hname⟩ := mem_tickets_iff.mp (show _ ∈ (Phase.queueing job).tickets from hmem)
    have hlt := (h.isOpen _ hname).lt
    omega

theorem HoldsLocks.releaseAll (h : HoldsLocks locks phase) (hwell : locks.WellFormed)
    {tickets : List Nat} (henter : ∀ ticket ∈ tickets, locks.canEnter ticket = true)
    (hother : ∀ ticket ∈ phase.tickets, ticket ∉ tickets) :
    HoldsLocks (locks.releaseAll tickets) phase where
  isOpen := by
    intro entry hentry
    rw [Locks.open_releaseAll]
    exact ⟨h.isOpen entry hentry, hother _ (mem_tickets_iff.mpr ⟨entry.2, hentry⟩)⟩
  named := by
    intro entry hentry
    rw [Locks.nameOf_releaseAll]
    exact h.named entry hentry
  entered := fun entry hentry ↦ (hwell.releaseAll henter).2 _ (h.entered entry hentry)
  nodup := h.nodup

/-- A step that leaves the locks alone keeps what the call holds. -/
theorem HoldsLocks.same (h : HoldsLocks locks phase) {next : Phase}
    (hlocked : next.locked = phase.locked)
    (hentered : ∀ entry ∈ next.entered, entry ∈ phase.entered ∨ locks.canEnter entry.1 = true) :
    HoldsLocks locks next where
  isOpen := fun entry hentry ↦ h.isOpen entry (hlocked ▸ hentry)
  named := fun entry hentry ↦ h.named entry (hlocked ▸ hentry)
  entered := fun entry hentry ↦ (hentered entry hentry).elim (h.entered entry) id
  nodup := by
    rw [← map_fst_locked, hlocked, map_fst_locked]
    exact h.nodup

end

section

variable {host : Host} {relay : RelayService} {p q : Process} {event : Event}

private theorem LocksOk.start (h : LocksOk p) {next : Phase} (hnext : next.locked = []) :
    LocksOk { p with calls := p.calls ++ [next] } where
  wellFormed := h.wellFormed
  holds := by
    intro i phase hi
    rcases getElem?_append_eq_some hi with ⟨-, rfl⟩ | hi
    · exact holdsLocks_of_locked_nil hnext
    · exact h.holds i phase hi
  distinct := by
    intro i j phase phase' hne hi hj ticket hticket hticket'
    rcases getElem?_append_eq_some hi with ⟨-, rfl⟩ | hi
    · rw [tickets_of_locked_nil hnext] at hticket
      cases hticket
    rcases getElem?_append_eq_some hj with ⟨-, rfl⟩ | hj
    · rw [tickets_of_locked_nil hnext] at hticket'
      cases hticket'
    exact h.distinct i j phase phase' hne hi hj ticket hticket hticket'
  owned := by
    intro ticket hopen
    obtain ⟨i, phase, hi, hticket⟩ := h.owned ticket hopen
    refine ⟨i, phase, ?_, hticket⟩
    show (p.calls ++ [next])[i]? = some phase
    rw [List.getElem?_append_left (List.getElem?_eq_some_iff.mp hi).1, hi]

private theorem locksOk_crash (p : Process) :
    LocksOk { store := p.store, locks := .none, calls := p.calls.map Phase.crash } := by
  have hcall {i : Nat} {phase : Phase} (hi : (p.calls.map Phase.crash)[i]? = some phase) :
      phase.locked = [] := by
    rw [List.getElem?_map, Option.map_eq_some_iff] at hi
    obtain ⟨old, -, rfl⟩ := hi
    exact locked_crash old
  refine ⟨Locks.wellFormed_none, ?_, ?_, ?_⟩
  · intro i phase hi
    exact holdsLocks_of_locked_nil (hcall hi)
  · intro i j phase phase' _ hi _ ticket hticket
    rw [tickets_of_locked_nil (hcall hi)] at hticket
    cases hticket
  · intro ticket hopen
    exact absurd hopen.lt (Nat.not_lt_zero ticket)

private theorem LocksOk.advance (h : LocksOk p) {i : Nat} {phase : Phase} {stepped : Stepped}
    (hcall : p.calls[i]? = some phase) (hstep : LockStep p.locks phase stepped) :
    LocksOk { store := stepped.store, locks := stepped.locks,
              calls := p.calls.set i stepped.phase } := by
  have hholds := h.holds i phase hcall
  have hself := getElem?_set_self hcall stepped.phase
  cases hstep with
  | same hlocks hlocked hentered =>
    have htickets : stepped.phase.tickets = phase.tickets := by
      rw [← map_fst_locked, hlocked, map_fst_locked]
    rw [hlocks]
    refine ⟨h.wellFormed, ?_, ?_, ?_⟩
    · intro j other hj
      rcases getElem?_set_eq_some hj with ⟨-, rfl⟩ | ⟨-, hj⟩
      · exact hholds.same hlocked hentered
      · exact h.holds j other hj
    · intro j k other other' hne hj hk ticket hticket hticket'
      rcases getElem?_set_eq_some hj with ⟨rfl, rfl⟩ | ⟨-, hj'⟩
      · rcases getElem?_set_eq_some hk with ⟨rfl, -⟩ | ⟨-, hk⟩
        · exact hne rfl
        · exact h.distinct _ k phase other' hne hcall hk ticket (htickets ▸ hticket) hticket'
      · rcases getElem?_set_eq_some hk with ⟨rfl, rfl⟩ | ⟨-, hk⟩
        · exact h.distinct j _ other phase hne hj' hcall ticket hticket (htickets ▸ hticket')
        · exact h.distinct j k other other' hne hj' hk ticket hticket hticket'
    · intro ticket hopen
      obtain ⟨j, other, hj, hticket⟩ := h.owned ticket hopen
      by_cases hji : j = i
      · subst hji
        rw [hcall] at hj
        cases hj
        exact ⟨j, _, hself, htickets ▸ hticket⟩
      · refine ⟨j, other, ?_, hticket⟩
        show (p.calls.set i stepped.phase)[j]? = some other
        rw [List.getElem?_set_ne (Ne.symm hji), hj]
  | @enqueue job hphase hlocks hnext =>
    subst hphase
    have hnew : stepped.phase.tickets = p.locks.tickets.length :: (Phase.queueing job).tickets := by
      rw [hnext]
      rfl
    have hbound {j : Nat} {other : Phase} (hj : p.calls[j]? = some other) {ticket : Nat}
        (hticket : ticket ∈ other.tickets) : ticket < p.locks.tickets.length := by
      obtain ⟨name, hname⟩ := mem_tickets_iff.mp hticket
      exact ((h.holds j other hj).isOpen _ hname).lt
    rw [hlocks]
    refine ⟨h.wellFormed.enqueue _, ?_, ?_, ?_⟩
    · intro j other hj
      rcases getElem?_set_eq_some hj with ⟨-, rfl⟩ | ⟨-, hj⟩
      · rw [hnext]
        exact hholds.waiting h.wellFormed
      · exact (h.holds j other hj).enqueue h.wellFormed _
    · -- the new call of the lock is later than those that others hold
      intro j k other other' hne hj hk ticket hticket hticket'
      rcases getElem?_set_eq_some hj with ⟨rfl, rfl⟩ | ⟨-, hj'⟩
      · rcases getElem?_set_eq_some hk with ⟨rfl, -⟩ | ⟨-, hk⟩
        · exact hne rfl
        · rcases List.mem_cons.mp (hnew ▸ hticket) with rfl | hticket
          · exact Nat.lt_irrefl _ (hbound hk hticket')
          · exact h.distinct _ k _ other' hne hcall hk ticket hticket hticket'
      · rcases getElem?_set_eq_some hk with ⟨rfl, rfl⟩ | ⟨-, hk⟩
        · rcases List.mem_cons.mp (hnew ▸ hticket') with rfl | hticket'
          · exact Nat.lt_irrefl _ (hbound hj' hticket)
          · exact h.distinct j _ other _ hne hj' hcall ticket hticket hticket'
        · exact h.distinct j k other other' hne hj' hk ticket hticket hticket'
    · intro ticket hopen
      by_cases hticketNew : ticket = p.locks.tickets.length
      · exact ⟨i, _, hself, by rw [hnew, hticketNew]; exact List.mem_cons_self⟩
      · have hold := ((Locks.open_enqueue _ _ _).mp hopen).resolve_right hticketNew
        obtain ⟨j, other, hj, hticket⟩ := h.owned ticket hold
        by_cases hji : j = i
        · subst hji
          rw [hcall] at hj
          cases hj
          exact ⟨j, _, hself, by rw [hnew]; exact List.mem_cons_of_mem _ hticket⟩
        · refine ⟨j, other, ?_, hticket⟩
          show (p.calls.set i stepped.phase)[j]? = some other
          rw [List.getElem?_set_ne (Ne.symm hji), hj]
  | release hlocks hlocked hentered =>
    have henter : ∀ ticket ∈ phase.tickets, p.locks.canEnter ticket = true := by
      intro ticket hticket
      obtain ⟨name, hname⟩ := mem_tickets_iff.mp hticket
      exact (hentered _ hname).elim (hholds.entered _) id
    have hnone := tickets_of_locked_nil hlocked
    rw [hlocks]
    refine ⟨(h.wellFormed.releaseAll henter).1, ?_, ?_, ?_⟩
    · intro j other hj
      rcases getElem?_set_eq_some hj with ⟨-, rfl⟩ | ⟨hji, hj⟩
      · exact holdsLocks_of_locked_nil hlocked
      · exact (h.holds j other hj).releaseAll h.wellFormed henter
          (h.distinct j i other phase hji hj hcall)
    · intro j k other other' hne hj hk ticket hticket hticket'
      rcases getElem?_set_eq_some hj with ⟨-, rfl⟩ | ⟨-, hj⟩
      · rw [hnone] at hticket
        cases hticket
      rcases getElem?_set_eq_some hk with ⟨-, rfl⟩ | ⟨-, hk⟩
      · rw [hnone] at hticket'
        cases hticket'
      exact h.distinct j k other other' hne hj hk ticket hticket hticket'
    · intro ticket hopen
      obtain ⟨hold, hnot⟩ := (Locks.open_releaseAll _ _ _).mp hopen
      obtain ⟨j, other, hj, hticket⟩ := h.owned ticket hold
      have hji : j ≠ i := by
        intro heq
        subst heq
        rw [hcall] at hj
        cases hj
        exact hnot hticket
      refine ⟨j, other, ?_, hticket⟩
      show (p.calls.set i stepped.phase)[j]? = some other
      rw [List.getElem?_set_ne (Ne.symm hji), hj]

/-- Every event keeps the locks in order. -/
theorem LocksOk.step (h : LocksOk p) (hstep : Steps host relay p event q) : LocksOk q := by
  cases hstep with
  | start => exact h.start (begins host relay _).locked
  | crash => exact locksOk_crash p
  | advance hcall hadvance => exact h.advance hcall (lockStep_of_advances hadvance)

/-- Two calls are never inside the same lock. -/
theorem LocksOk.exclusive (h : LocksOk p) {i j : Nat} {phase phase' : Phase}
    (hi : p.calls[i]? = some phase) (hj : p.calls[j]? = some phase') {ticket ticket' : Nat}
    {name : JsString} (hentered : (ticket, name) ∈ phase.entered)
    (hentered' : (ticket', name) ∈ phase'.entered) : i = j := by
  have hholds := h.holds i phase hi
  have hholds' := h.holds j phase' hj
  have hlocked := entered_subset phase hentered
  have hlocked' := entered_subset phase' hentered'
  obtain rfl : ticket = ticket' := h.wellFormed.exclusive (hholds.entered _ hentered)
    (hholds'.entered _ hentered') (hholds.isOpen _ hlocked) (hholds'.isOpen _ hlocked')
    (hholds.named _ hlocked) (hholds'.named _ hlocked')
  by_contra hne
  exact h.distinct i j phase phase' hne hi hj ticket (mem_tickets_iff.mpr ⟨_, hlocked⟩)
    (mem_tickets_iff.mpr ⟨_, hlocked'⟩)

end

end TimeProofs.Relay
