import Mathlib.Data.Prod.Lex
import TimeProofs.Relay.Atomicity
import TimeProofs.Relay.Locking

/-!
# No deadlock

A call that creates an action keeps the lock of the action while it asks for the lock of the
refund index. The two share one map, so a client that names its action like the index makes the
call wait for itself. Without such a call the calls never wait in a circle.
-/

namespace TimeProofs.Relay

open TimeProofs.Base TimeProofs.Json TimeProofs.Core TimeProofs.VerdictEngine
  TimeProofs.StripeConnector

/-- A call waits for a lock that another call, or the call itself, has asked for before and not
released. -/
def WaitsFor (p : Process) (i j : Nat) : Prop :=
  ∃ job ticket phase earlier, p.calls[i]? = some (.waiting job ticket) ∧
    p.calls[j]? = some phase ∧ (earlier, job.lock) ∈ phase.locked ∧ earlier < ticket

/-- A job that asks for the lock of the index while it holds a lock of that name. -/
def Job.asksForOwn : Job → Bool
  | .link _ _ (some creating) => creating.action.actionId = stripeIndexLock
  | _ => false

/-- The event does not make a call ask for the lock of the index that the call holds as the lock
of its action. -/
def AsksInOrder (p : Process) (event : Event) : Prop :=
  ∀ i job, event = .advance i → p.calls[i]? = some (.queueing job) → job.asksForOwn = false

/-- No waiting call asks for a lock that it holds. -/
def WaitsInOrder (p : Process) : Prop :=
  ∀ (i : Nat) job ticket, p.calls[i]? = some (.waiting job ticket) → job.asksForOwn = false

section

variable {host : Host} {relay : RelayService} {p q : Process} {event : Event}

theorem waitsInOrder_step (h : WaitsInOrder p) (hgood : AsksInOrder p event)
    (hstep : Steps host relay p event q) : WaitsInOrder q := by
  intro i job ticket hi
  cases hstep with
  | @start request =>
    rcases getElem?_append_eq_some hi with ⟨-, hphase⟩ | hi
    · have hlocked := (begins host relay request).locked
      rw [← hphase] at hlocked
      cases hlocked
    · exact h i job ticket hi
  | crash =>
    rw [List.getElem?_map, Option.map_eq_some_iff] at hi
    obtain ⟨old, -, hcrash⟩ := hi
    cases old <;> cases hcrash
  | @advance k phase stepped hcall hadvance =>
    rcases getElem?_set_eq_some hi with ⟨rfl, hphase⟩ | ⟨-, hi⟩
    · cases hadvance with
      | enqueue =>
        cases hphase
        exact hgood i _ rfl hcall
      | _ => cases hphase
    · exact h i job ticket hi

/-- The order in which locks are granted: the lock of the index first, then by the time of the
call. -/
def waitRank (job : Job) (ticket : Nat) : Nat ×ₗ Nat :=
  toLex (if job.lock = stripeIndexLock then 0 else 1, ticket)

/-- A call that is waited for, when it waits itself, comes first. -/
theorem waitRank_lt {job job' : Job} {ticket ticket' earlier : Nat}
    (horder : job'.asksForOwn = false)
    (hlocked : (earlier, job.lock) ∈ (Phase.waiting job' ticket').locked)
    (hearlier : earlier < ticket) : waitRank job' ticket' < waitRank job ticket := by
  rw [waitRank, waitRank, Prod.Lex.toLex_lt_toLex]
  rcases List.mem_cons.mp hlocked with heq | hheld
  · obtain ⟨rfl, hlock⟩ := Prod.mk.inj heq
    exact .inr ⟨by rw [hlock], hearlier⟩
  · -- a call holds a lock while it waits only for the lock of the index
    cases job' with
    | store writer => cases hheld
    | link refundId actionId creating =>
      cases creating with
      | none => cases hheld
      | some creating =>
        obtain ⟨-, hlock⟩ := Prod.mk.inj (List.mem_singleton.mp hheld)
        have hne : job.lock ≠ stripeIndexLock := by
          intro heq
          rw [Job.asksForOwn, decide_eq_false_iff_not] at horder
          exact horder (hlock ▸ heq)
        refine .inl ?_
        show (if stripeIndexLock = stripeIndexLock then 0 else 1) < (if _ then 0 else 1)
        rw [if_pos rfl, if_neg hne]
        exact Nat.zero_lt_one

/-- A call that holds a lock has not ended. -/
theorem isRunning_of_locked {phase : Phase} {entry : Nat × JsString} (h : entry ∈ phase.locked) :
    phase.isRunning = true := by
  cases phase with
  | settled result => cases h
  | crashed => cases h
  | _ => rfl

/-- A call that can take a step can go on. -/
theorem step_of_advance {i : Nat} {phase : Phase} {stepped : Stepped}
    (hi : p.calls[i]? = some phase)
    (h : advance host relay p.store p.locks phase = some stepped) :
    ∃ q, p.step host relay (.advance i) = some q := by
  refine ⟨{ store := stepped.store, locks := stepped.locks,
            calls := p.calls.set i stepped.phase }, ?_⟩
  rw [Process.step, hi]
  simp only [h, Option.map_some]

/-- A running call that does not wait for a lock can go on. -/
theorem step_of_running {i : Nat} {phase : Phase} (hi : p.calls[i]? = some phase)
    (hrunning : phase.isRunning = true) (hnot : ∀ job ticket, phase ≠ .waiting job ticket) :
    ∃ q, p.step host relay (.advance i) = some q := by
  have hadvance : ∃ stepped, advance host relay p.store p.locks phase = some stepped := by
    cases phase with
    | waiting job ticket => exact absurd rfl (hnot job ticket)
    | settled result => cases hrunning
    | crashed => cases hrunning
    | finding delivery =>
      rw [advance]
      split
      · exact ⟨_, rfl⟩
      · split <;> exact ⟨_, rfl⟩
    | listingFiles actionId key names entries =>
      cases names with
      | nil => exact ⟨_, rfl⟩
      | cons name rest =>
        rw [advance]
        split <;> exact ⟨_, rfl⟩
    | _ => exact ⟨_, rfl⟩
  obtain ⟨stepped, hstepped⟩ := hadvance
  exact step_of_advance hi hstepped

/-- A call whose lock is granted can go on. -/
theorem step_of_canEnter {i : Nat} {job : Job} {ticket : Nat}
    (hi : p.calls[i]? = some (.waiting job ticket)) (henter : p.locks.canEnter ticket = true) :
    ∃ q, p.step host relay (.advance i) = some q := by
  have hstepped : advance host relay p.store p.locks (.waiting job ticket) =
      some (enter host p.store p.locks job ticket) := by rw [advance, if_pos henter]
  exact step_of_advance hi hstepped

/-- Behind every waiting call there is one that can go on. -/
theorem step_of_waiting (hlocks : LocksOk p) (horder : WaitsInOrder p) :
    ∀ rank : Nat ×ₗ Nat, ∀ (i : Nat) job ticket, waitRank job ticket = rank →
      p.calls[i]? = some (.waiting job ticket) →
      ∃ j q, p.step host relay (.advance j) = some q := by
  intro rank
  induction rank using WellFoundedLT.induction with
  | ind rank ih =>
    intro i job ticket hrank hi
    have hholds := hlocks.holds i _ hi
    have hname : p.locks.nameOf ticket = some job.lock := hholds.named (ticket, job.lock)
      List.mem_cons_self
    by_cases henter : p.locks.canEnter ticket = true
    · exact ⟨i, step_of_canEnter hi henter⟩
    · rw [hlocks.wellFormed.canEnter_iff hname] at henter
      simp only [not_forall, not_not] at henter
      obtain ⟨earlier, hearlier, hearlierName, hopen⟩ := henter
      obtain ⟨j, phase, hj, hticket⟩ := hlocks.owned earlier hopen
      obtain ⟨name, hlocked⟩ := mem_tickets_iff.mp hticket
      obtain rfl : job.lock = name := by
        have hnamed := (hlocks.holds j phase hj).named _ hlocked
        rw [hearlierName] at hnamed
        exact Option.some.inj hnamed
      by_cases hwaiting : ∃ job' ticket', phase = .waiting job' ticket'
      · obtain ⟨job', ticket', rfl⟩ := hwaiting
        have hlt := waitRank_lt (horder j job' ticket' hj) hlocked hearlier
        exact ih _ (hrank ▸ hlt) j job' ticket' rfl hj
      · refine ⟨j, step_of_running hj (isRunning_of_locked hlocked) ?_⟩
        intro job' ticket' heq
        exact hwaiting ⟨job', ticket', heq⟩

/-- No call waits, over others or directly, for itself. -/
theorem not_waitsFor_self (horder : WaitsInOrder p) (i : Nat) :
    ¬Relation.TransGen (WaitsFor p) i i := by
  have hrank {i j : Nat} (h : Relation.TransGen (WaitsFor p) i j) {job job' : Job}
      {ticket ticket' : Nat} (hi : p.calls[i]? = some (.waiting job ticket))
      (hj : p.calls[j]? = some (.waiting job' ticket')) :
      waitRank job' ticket' < waitRank job ticket := by
    induction h generalizing job' ticket' with
    | single hwaits =>
      obtain ⟨job₁, ticket₁, phase, earlier, hi', hj', hlocked, hlt⟩ := hwaits
      rw [hi] at hi'
      rw [hj] at hj'
      cases hi'
      cases hj'
      exact waitRank_lt (horder _ _ _ hj) hlocked hlt
    | tail _ hwaits ih =>
      obtain ⟨job₁, ticket₁, phase, earlier, hk, hj', hlocked, hlt⟩ := hwaits
      rw [hj] at hj'
      cases hj'
      exact (waitRank_lt (horder _ _ _ hj) hlocked hlt).trans (ih hk)
  intro h
  obtain ⟨job, ticket, hi⟩ : ∃ job ticket, p.calls[i]? = some (.waiting job ticket) := by
    obtain ⟨j, hwaits, -⟩ := Relation.TransGen.head'_iff.mp h
    obtain ⟨job, ticket, -, -, hi, -⟩ := hwaits
    exact ⟨job, ticket, hi⟩
  exact lt_irrefl _ (hrank h hi hi)

/-- While no call asks for the lock of the index that it holds already, no call waits for itself,
and as long as a call has not ended some call can go on. -/
theorem no_deadlock {store : Store}
    (hrun : Runs (Process.step host relay) AsksInOrder (.fresh store) p) :
    (∀ i, ¬Relation.TransGen (WaitsFor p) i i) ∧
      ((∃ phase ∈ p.calls, phase.isRunning = true) →
        ∃ i q, p.step host relay (.advance i) = some q) := by
  have hfresh : LocksOk (.fresh store) ∧ WaitsInOrder (.fresh store) :=
    ⟨locksOk_fresh store, fun i job ticket hi ↦ by simp [Process.fresh] at hi⟩
  have hkeep : ∀ s event t, LocksOk s ∧ WaitsInOrder s → AsksInOrder s event →
      s.step host relay event = some t → LocksOk t ∧ WaitsInOrder t := by
    rintro s event t ⟨hlocks, horder⟩ hgood hstep
    have hsteps := steps_of_step hstep
    exact ⟨hlocks.step hsteps, waitsInOrder_step horder hgood hsteps⟩
  obtain ⟨hlocks, horder⟩ := hrun.keeps hkeep hfresh
  refine ⟨not_waitsFor_self horder, ?_⟩
  rintro ⟨phase, hphase, hrunning⟩
  obtain ⟨i, hi⟩ := List.mem_iff_getElem?.mp hphase
  by_cases hwaiting : ∃ job ticket, phase = .waiting job ticket
  · obtain ⟨job, ticket, rfl⟩ := hwaiting
    exact step_of_waiting hlocks horder _ i job ticket rfl hi
  · refine ⟨i, step_of_running hi hrunning ?_⟩
    intro job ticket heq
    exact hwaiting ⟨job, ticket, heq⟩

/-- A call that asks for the lock of the index out of order waits for itself ever after: the
lock that it holds is released only when it ends. -/
theorem waitsFor_self_of_asksForOwn (hlocks : LocksOk p) {i : Nat} {job : Job}
    (hi : p.calls[i]? = some (.queueing job)) (hjob : job.asksForOwn = true)
    (hstep : Steps host relay p (.advance i) q) : WaitsFor q i i := by
  cases hstep with
  | @advance _ phase stepped hcall hadvance =>
    rw [hi] at hcall
    cases hcall
    cases hadvance with
    | enqueue =>
      cases job with
      | store writer => cases hjob
      | link refundId actionId creating =>
        cases creating with
        | none => cases hjob
        | some creating =>
          rw [Job.asksForOwn, decide_eq_true_eq] at hjob
          have hholds := hlocks.holds i _ hi
          have hopen := hholds.isOpen (creating.ticket, creating.action.actionId)
            (List.mem_singleton_self _)
          refine ⟨_, _, _, creating.ticket, getElem?_set_self hi _, getElem?_set_self hi _, ?_,
            hopen.lt⟩
          have hheld : (creating.ticket, stripeIndexLock) ∈
              (Job.link refundId actionId (some creating)).heldLocks := by
            rw [← hjob]
            exact List.mem_singleton_self _
          exact List.mem_cons_of_mem _ hheld

end

/-- A new action with the name of the index lock. -/
def indexNamedAction : NewAction where
  actionId := stripeIndexLock
  bundle := membersOf (some settledBundle)
  current := { actionId := none, bundleId := none, payloadDigest := none
               structuralStatus := .valid, verdict := .verified, reasons := []
               decisiveEvents := [], missingEvidence := [], updatedAt := none }
  ruleset := refundRuleset
  correlations := [(js "stripe_refund_id", jsonText "re_1")]

/-- Whether calls run on after the events and none of them can go on. -/
def stuckAfter (events : List Event) : Bool :=
  match runEvents (Process.step sampleHost sampleRelay) (.fresh .empty) events with
  | some p => p.calls.any Phase.isRunning &&
      (List.range p.calls.length).all fun i ↦
        (p.step sampleHost sampleRelay (.advance i)).isNone
  | none => false

theorem indexNamedAction_deadlocks :
    ∃ p, Runs (Process.step sampleHost sampleRelay) (fun _ _ ↦ True) (.fresh .empty) p ∧
      (∃ phase ∈ p.calls, phase.isRunning = true) ∧
      ¬∃ i q, p.step sampleHost sampleRelay (.advance i) = some q := by
  have hstuck : stuckAfter [.start (.createAction indexNamedAction), .advance 0, .advance 0,
      .advance 0, .advance 0, .advance 0, .advance 0] = true := by decide +kernel
  unfold stuckAfter at hstuck
  split at hstuck
  · next p hp =>
    rw [Bool.and_eq_true, List.any_eq_true, List.all_eq_true] at hstuck
    obtain ⟨hrunning, hnone⟩ := hstuck
    refine ⟨p, runs_of_runEvents (fun _ _ _ ↦ trivial) hp, hrunning, ?_⟩
    rintro ⟨i, q, hstep⟩
    by_cases hi : i < p.calls.length
    · have hnot := hnone i (List.mem_range.mpr hi)
      rw [hstep] at hnot
      cases hnot
    · rw [Process.step, List.getElem?_eq_none (by omega)] at hstep
      cases hstep
  · cases hstuck

/-- Two calls that link a refund, both waiting for the index. -/
def linkingCalls : Process where
  store := .empty
  locks := (Locks.none.enqueue stripeIndexLock).enqueue stripeIndexLock
  calls := [.waiting (.link (js "re_1") (js "a1") none) 0,
    .waiting (.link (js "re_2") (js "a2") none) 1]

theorem no_deadlock_linkingCalls :
    (∀ i, ¬Relation.TransGen (WaitsFor linkingCalls) i i) ∧
      ((∃ phase ∈ linkingCalls.calls, phase.isRunning = true) →
        ∃ i q, linkingCalls.step sampleHost sampleRelay (.advance i) = some q) := by
  have hrun : Runs (Process.step sampleHost sampleRelay) AsksInOrder (.fresh .empty)
      linkingCalls := by
    have hstart (request : CallRequest) (p : Process) : AsksInOrder p (.start request) :=
      fun i job heq ↦ by cases heq
    have hadvance {p : Process} {i : Nat} {refundId actionId : JsString}
        (hi : p.calls[i]? = some (.queueing (.link refundId actionId none))) :
        AsksInOrder p (.advance i) := by
      intro j job heq hj
      cases heq
      rw [hi] at hj
      cases hj
      rfl
    refine .next (.next (.next (.next .refl
      (hstart (.registerStripeRefund (jsonText "re_1") (js "a1")) _) rfl)
      (hstart (.registerStripeRefund (jsonText "re_2") (js "a2")) _) rfl)
      (hadvance (i := 0) rfl) rfl) (hadvance (i := 1) rfl) rfl
  exact no_deadlock hrun

end TimeProofs.Relay
