import TimeProofs.Base.PromiseLock
import TimeProofs.Base.Run

/-!
# The steps of `withLock`

`store.mjs:64–77`, one promise step at a time. A call reads the map, leaves its promise there and
waits. What follows is taken in any order: the handler of its promise runs once the promise that
it found has settled, the callback starts, ends and releases, and the promise settles. A promise
that is adopted by another settles it in one step here, and every promise is fulfilled, whether
or not a callback throws.
-/

namespace TimeProofs.Relay.WithLock

open TimeProofs.Base

/-- How far the caller is. -/
inductive Phase where
  | waiting
  | running
  | finished (threw : Bool)
  | done (threw : Bool)
deriving DecidableEq

/-- How far the promise `queued` is: its handler has not run, it follows `current`, it has
settled. -/
inductive Queued where
  | fresh
  | linked
  | settled
deriving DecidableEq

/-- A call of `withLock`. It found the promise of another call, or none. -/
structure Call (κ : Type) where
  key : κ
  previous : Option Nat
  phase : Phase
  queued : Queued

/-- The calls in their order, and the calls whose promises are in the map. -/
structure LockState (κ : Type) where
  calls : List (Call κ)
  locks : κ → Option Nat

/-- A step of one call. -/
inductive Step where
  | link
  | start
  | finish (threw : Bool)
  | release
  | settle
deriving DecidableEq

inductive Event (κ : Type) where
  | withLock (key : κ)
  | step (id : Nat) (step : Step)

variable {κ : Type}

/-- No call has been made. -/
def idle : LockState κ := ⟨[], fun _ ↦ none⟩

/-- The callback has ended. -/
def Phase.isOver : Phase → Bool
  | .waiting | .running => false
  | .finished _ | .done _ => true

def Phase.isDone : Phase → Bool
  | .waiting | .running | .finished _ => false
  | .done _ => true

/-- The promise that a call waits for has settled; `Promise.resolve()` has. -/
def LockState.previousSettled (s : LockState κ) (call : Call κ) : Bool :=
  call.previous.all fun id ↦ s.calls[id]?.any fun found ↦ found.queued = .settled

/-- What a step makes of its call, when it is possible. -/
def Call.step (previousSettled : Bool) (call : Call κ) : Step → Option (Call κ)
  | .link =>
    if previousSettled ∧ call.queued = .fresh then some { call with queued := .linked } else none
  | .start =>
    if previousSettled ∧ call.phase = .waiting then some { call with phase := .running } else none
  | .finish threw =>
    if call.phase = .running then some { call with phase := .finished threw } else none
  | .release =>
    match call.phase with
    | .finished threw => some { call with phase := .done threw }
    | _ => none
  | .settle =>
    if call.phase.isDone ∧ call.queued = .linked then some { call with queued := .settled }
    else none

/-- One step of the calls and the map. -/
def step [DecidableEq κ] (s : LockState κ) : Event κ → Option (LockState κ)
  | .withLock key => some
    { calls := s.calls ++ [⟨key, s.locks key, .waiting, .fresh⟩]
      locks := fun k ↦ if k = key then some s.calls.length else s.locks k }
  | .step id what =>
    match s.calls[id]? with
    | none => none
    | some call => (call.step (s.previousSettled call) what).map fun next ↦
      { calls := s.calls.set id next
        -- only the call whose promise is still in the map deletes it
        locks := if what = .release ∧ s.locks call.key = some id then
            fun k ↦ if k = call.key then none else s.locks k
          else s.locks }

/-- The state as a lock made of promises. -/
def LockState.toLocks (s : LockState κ) : Locks κ where
  tickets := s.calls.map fun call ↦ ⟨call.key, call.previous, call.phase.isDone⟩
  last := s.locks

/-- What holds in every state: only released calls settle, a callback starts when its turn has
come, and the map has promises of calls that are not done. -/
structure Sound (s : LockState κ) : Prop where
  wellFormed : s.toLocks.WellFormed
  settled : ∀ id call, s.calls[id]? = some call → call.queued = .settled →
    s.toLocks.settled id = true
  started : ∀ id call, s.calls[id]? = some call → call.phase ≠ .waiting →
    s.toLocks.canEnter id = true
  inMap : ∀ key id, s.locks key = some id → s.toLocks.Open id

theorem getElem?_toLocks (s : LockState κ) (id : Nat) :
    s.toLocks.tickets[id]? =
      s.calls[id]?.map fun call ↦ ⟨call.key, call.previous, call.phase.isDone⟩ := by
  rw [LockState.toLocks, List.getElem?_map]

theorem nameOf_toLocks (s : LockState κ) (id : Nat) :
    s.toLocks.nameOf id = s.calls[id]?.map Call.key := by
  rw [Locks.nameOf, getElem?_toLocks, Option.map_map]
  rfl

theorem open_toLocks {s : LockState κ} {id : Nat} :
    s.toLocks.Open id ↔ ∃ call, s.calls[id]? = some call ∧ call.phase.isDone = false := by
  unfold Locks.Open
  rw [getElem?_toLocks]
  constructor
  · rintro ⟨ticket, hticket, hopen⟩
    obtain ⟨call, hcall, rfl⟩ := Option.map_eq_some_iff.mp hticket
    exact ⟨call, hcall, hopen⟩
  · rintro ⟨call, hcall, hopen⟩
    exact ⟨_, by rw [hcall]; rfl, hopen⟩

/-- A promise that has settled in the steps has settled in the lock. -/
theorem Sound.canEnter {s : LockState κ} (h : Sound s) {id : Nat} {call : Call κ}
    (hcall : s.calls[id]? = some call) (hprevious : s.previousSettled call = true) :
    s.toLocks.canEnter id = true := by
  rw [Locks.canEnter, getElem?_toLocks, hcall]
  dsimp only [Option.map_some]
  unfold LockState.previousSettled at hprevious
  cases hfound : call.previous with
  | none => rfl
  | some before =>
    rw [hfound, Option.all_some, Option.any_eq_true] at hprevious
    obtain ⟨found, hget, hsettled⟩ := hprevious
    exact h.settled before found hget (of_decide_eq_true hsettled)

theorem sound_idle : Sound (idle : LockState κ) where
  wellFormed := Locks.wellFormed_none
  settled := fun id call h ↦ by simp [idle] at h
  started := fun id call h ↦ by simp [idle] at h
  inMap := fun key id h ↦ by cases h

theorem Call.step_cases {previousSettled : Bool} {call next : Call κ} {what : Step}
    (h : call.step previousSettled what = some next) :
    (what = .link ∧ previousSettled = true ∧ call.queued = .fresh ∧
        next = { call with queued := .linked }) ∨
      (what = .start ∧ previousSettled = true ∧ call.phase = .waiting ∧
        next = { call with phase := .running }) ∨
      (∃ threw, what = .finish threw ∧ call.phase = .running ∧
        next = { call with phase := .finished threw }) ∨
      (∃ threw, what = .release ∧ call.phase = .finished threw ∧
        next = { call with phase := .done threw }) ∨
      (what = .settle ∧ call.phase.isDone = true ∧ call.queued = .linked ∧
        next = { call with queued := .settled }) := by
  cases what with
  | link =>
    obtain ⟨⟨hprevious, hfresh⟩, heq⟩ := Option.ite_none_right_eq_some.mp h
    cases heq
    exact .inl ⟨rfl, hprevious, hfresh, rfl⟩
  | start =>
    obtain ⟨⟨hprevious, hwaiting⟩, heq⟩ := Option.ite_none_right_eq_some.mp h
    cases heq
    exact .inr (.inl ⟨rfl, hprevious, hwaiting, rfl⟩)
  | finish threw =>
    obtain ⟨hrunning, heq⟩ := Option.ite_none_right_eq_some.mp h
    cases heq
    exact .inr (.inr (.inl ⟨threw, rfl, hrunning, rfl⟩))
  | release =>
    cases hphase : call.phase with
    | finished threw =>
      simp only [Call.step, hphase, Option.some_inj] at h
      exact .inr (.inr (.inr (.inl ⟨threw, rfl, rfl, h.symm⟩)))
    | waiting => simp [Call.step, hphase] at h
    | running => simp [Call.step, hphase] at h
    | done threw => simp [Call.step, hphase] at h
  | settle =>
    obtain ⟨⟨hdone, hlinked⟩, heq⟩ := Option.ite_none_right_eq_some.mp h
    cases heq
    exact .inr (.inr (.inr (.inr ⟨rfl, hdone, hlinked, rfl⟩)))

/-- A call keeps its key and the promise that it found. -/
theorem Call.step_keeps {previousSettled : Bool} {call next : Call κ} {what : Step}
    (h : call.step previousSettled what = some next) :
    next.key = call.key ∧ next.previous = call.previous := by
  obtain ⟨-, -, -, rfl⟩ | ⟨-, -, -, rfl⟩ | ⟨_, -, -, rfl⟩ | ⟨_, -, -, rfl⟩ | ⟨-, -, -, rfl⟩ :=
    Call.step_cases h <;> exact ⟨rfl, rfl⟩

/-- Only the release of a call makes it done. -/
theorem Call.step_isDone {previousSettled : Bool} {call next : Call κ} {what : Step}
    (h : call.step previousSettled what = some next) :
    next.phase.isDone = (call.phase.isDone || decide (what = .release)) := by
  obtain ⟨rfl, -, -, rfl⟩ | ⟨rfl, -, hphase, rfl⟩ | ⟨_, rfl, hphase, rfl⟩ |
    ⟨_, rfl, hphase, rfl⟩ | ⟨rfl, -, -, rfl⟩ := Call.step_cases h
  · exact (Bool.or_false _).symm
  · rw [hphase]
    rfl
  · rw [hphase]
    rfl
  · rw [hphase]
    rfl
  · exact (Bool.or_false _).symm

section

variable {s t : LockState κ}

/-- The tickets after a step of a call. -/
theorem getElem?_toLocks_step {id : Nat} {call next : Call κ} {what : Step}
    (hcall : s.calls[id]? = some call)
    (hnext : call.step (s.previousSettled call) what = some next)
    (hcalls : t.calls = s.calls.set id next) (k : Nat) :
    t.toLocks.tickets[k]? = s.toLocks.tickets[k]?.map fun ticket ↦
      if id = k ∧ what = .release then { ticket with released := true } else ticket := by
  obtain ⟨hkey, hprevious⟩ := Call.step_keeps hnext
  have hdone := Call.step_isDone hnext
  rw [getElem?_toLocks, getElem?_toLocks, hcalls, List.getElem?_set]
  by_cases hk : id = k
  · subst hk
    have hlt : id < s.calls.length := (List.getElem?_eq_some_iff.mp hcall).1
    rw [if_pos rfl, if_pos hlt, hcall]
    simp only [Option.map_some, true_and]
    by_cases hwhat : what = .release
    · simp [hwhat, hkey, hprevious, hdone]
    · simp [hwhat, hkey, hprevious, hdone]
  · simp [hk, Function.comp_def]

end

section

variable [DecidableEq κ] {s t : LockState κ}

theorem step_withLock (s : LockState κ) (key : κ) :
    ∃ t, step s (.withLock key) = some t ∧ t.toLocks = s.toLocks.enqueue key ∧
      t.calls = s.calls ++ [⟨key, s.locks key, .waiting, .fresh⟩] := by
  refine ⟨_, rfl, ?_, rfl⟩
  simp only [LockState.toLocks, Locks.enqueue, List.map_append, List.map_cons, List.map_nil,
    List.length_map, Phase.isDone]

/-- A step of a call is a step of that call alone. -/
theorem step_eq_some {id : Nat} {what : Step} (h : step s (.step id what) = some t) :
    ∃ call next, s.calls[id]? = some call ∧
      call.step (s.previousSettled call) what = some next ∧ t.calls = s.calls.set id next ∧
      t.locks = if what = .release ∧ s.locks call.key = some id then
          fun k ↦ if k = call.key then none else s.locks k
        else s.locks := by
  cases hcall : s.calls[id]? with
  | none => simp [step, hcall] at h
  | some call =>
    simp only [step, hcall, Option.map_eq_some_iff] at h
    obtain ⟨next, hnext, rfl⟩ := h
    exact ⟨call, next, rfl, hnext, rfl, rfl⟩

/-- A step other than a release is none of the lock. -/
theorem toLocks_step {id : Nat} {what : Step} (h : step s (.step id what) = some t)
    (hwhat : what ≠ .release) : t.toLocks = s.toLocks := by
  obtain ⟨call, next, hcall, hnext, hcalls, hlocks⟩ := step_eq_some h
  rw [if_neg fun hif ↦ hwhat hif.1] at hlocks
  have htickets : t.toLocks.tickets = s.toLocks.tickets := by
    apply List.ext_getElem?
    intro k
    rw [getElem?_toLocks_step hcall hnext hcalls]
    simp [hwhat]
  exact congrArg₂ Locks.mk htickets hlocks

/-- A release is the release of the lock. -/
theorem toLocks_release {id : Nat} (hs : Sound s) (h : step s (.step id .release) = some t) :
    t.toLocks = s.toLocks.release id := by
  obtain ⟨call, next, hcall, hnext, hcalls, hlocks⟩ := step_eq_some h
  have htickets : t.toLocks.tickets = (s.toLocks.release id).tickets := by
    apply List.ext_getElem?
    intro k
    rw [getElem?_toLocks_step hcall hnext hcalls, Locks.getElem?_release]
    simp
  have hlast (k : κ) : t.locks k = if s.locks k = some id then none else s.locks k := by
    rw [hlocks]
    by_cases hk : s.locks k = some id
    · -- a promise in the map is the one of a call of that key
      have hname := hs.wellFormed.last k id hk
      rw [nameOf_toLocks, hcall] at hname
      obtain rfl : call.key = k := Option.some.inj hname
      simp [hk]
    · have hne : ¬(s.locks call.key = some id ∧ k = call.key) := by
        rintro ⟨hcallKey, rfl⟩
        exact hk hcallKey
      by_cases hcallKey : s.locks call.key = some id
      · have hkey : k ≠ call.key := fun hkk ↦ hne ⟨hcallKey, hkk⟩
        simp [hk, hcallKey, hkey]
      · simp [hk, hcallKey]
  exact congrArg₂ Locks.mk htickets (funext hlast)

/-- A new call keeps the state sound. -/
theorem Sound.withLock (hs : Sound s) {key : κ} (h : step s (.withLock key) = some t) :
    Sound t := by
  obtain ⟨t', ht, hlocks, hcalls⟩ := step_withLock s key
  obtain rfl : t' = t := Option.some.inj (ht.symm.trans h)
  constructor
  case wellFormed =>
    rw [hlocks]
    exact hs.wellFormed.enqueue key
  case settled =>
    intro id call hcall hsettled
    rw [hcalls] at hcall
    obtain ⟨-, rfl⟩ | hold := getElem?_append_eq_some hcall
    · cases hsettled
    · rw [hlocks]
      exact hs.wellFormed.settled_enqueue key (hs.settled id call hold hsettled)
  case started =>
    intro id call hcall hphase
    rw [hcalls] at hcall
    obtain ⟨-, rfl⟩ | hold := getElem?_append_eq_some hcall
    · exact absurd rfl hphase
    · rw [hlocks]
      exact hs.wellFormed.canEnter_enqueue key (hs.started id call hold hphase)
  case inMap =>
    intro k id hk
    have hlast : (s.toLocks.enqueue key).last k = some id := hlocks ▸ hk
    rw [hlocks, Locks.open_enqueue]
    simp only [Locks.enqueue] at hlast
    split at hlast
    · exact .inr (Option.some.inj hlast).symm
    · exact .inl (hs.inMap k id hlast)

/-- A step of a call keeps the state sound. -/
theorem Sound.step_call (hs : Sound s) {id : Nat} {what : Step}
    (h : step s (.step id what) = some t) : Sound t := by
  obtain ⟨call, next, hcall, hnext, hcalls, -⟩ := step_eq_some h
  -- what the lock says of the call after the step, before the other calls are looked at
  have hstarted : next.phase ≠ .waiting → s.toLocks.canEnter id = true := by
    intro hphase
    obtain ⟨-, -, -, rfl⟩ | ⟨-, hprevious, -, -⟩ | ⟨_, -, hrunning, -⟩ | ⟨_, -, hfinished, -⟩ |
      ⟨-, hdone, -, rfl⟩ := Call.step_cases hnext
    · exact hs.started id call hcall hphase
    · exact hs.canEnter hcall hprevious
    · exact hs.started id call hcall (by rw [hrunning]; exact nofun)
    · exact hs.started id call hcall (by rw [hfinished]; exact nofun)
    · exact hs.started id call hcall hphase
  have hsettled : next.queued = .settled → s.toLocks.settled id = true := by
    intro hqueued
    obtain ⟨-, -, -, rfl⟩ | ⟨-, -, -, rfl⟩ | ⟨_, -, -, rfl⟩ | ⟨_, -, -, rfl⟩ | ⟨-, hdone, -, -⟩ :=
      Call.step_cases hnext
    · cases hqueued
    · exact hs.settled id call hcall hqueued
    · exact hs.settled id call hcall hqueued
    · exact hs.settled id call hcall hqueued
    · apply hs.wellFormed.settled_of_released
      · apply hs.started id call hcall
        intro hwaiting
        rw [hwaiting] at hdone
        cases hdone
      · rw [open_toLocks]
        rintro ⟨found, hfound, hopen⟩
        obtain rfl : call = found := Option.some.inj (hcall.symm.trans hfound)
        rw [hdone] at hopen
        cases hopen
  have hall : (∀ k found, t.calls[k]? = some found → found.queued = .settled →
        s.toLocks.settled k = true) ∧
      ∀ k found, t.calls[k]? = some found → found.phase ≠ .waiting →
        s.toLocks.canEnter k = true := by
    rw [hcalls]
    constructor
    · intro k found hfound hqueued
      obtain ⟨rfl, rfl⟩ | ⟨-, hold⟩ := getElem?_set_eq_some hfound
      · exact hsettled hqueued
      · exact hs.settled k found hold hqueued
    · intro k found hfound hphase
      obtain ⟨rfl, rfl⟩ | ⟨-, hold⟩ := getElem?_set_eq_some hfound
      · exact hstarted hphase
      · exact hs.started k found hold hphase
  by_cases hwhat : what = .release
  · subst hwhat
    have hlocks := toLocks_release hs h
    have henter : s.toLocks.canEnter id = true := by
      apply hstarted
      have hdone := Call.step_isDone hnext
      intro hwaiting
      rw [hwaiting] at hdone
      simp [Phase.isDone] at hdone
    constructor
    · rw [hlocks]
      exact hs.wellFormed.release henter
    · intro k found hfound hqueued
      rw [hlocks]
      exact hs.wellFormed.settled_release henter (hall.1 k found hfound hqueued)
    · intro k found hfound hphase
      rw [hlocks]
      exact hs.wellFormed.canEnter_release henter (hall.2 k found hfound hphase)
    · intro key k hk
      have hlast : (s.toLocks.release id).last key = some k := hlocks ▸ hk
      simp only [Locks.release] at hlast
      rw [hlocks, Locks.open_release]
      split at hlast
      · cases hlast
      · next hne =>
        refine ⟨hs.inMap key k hlast, ?_⟩
        rintro rfl
        exact hne hlast
  · have hlocks := toLocks_step h hwhat
    constructor
    · exact hlocks ▸ hs.wellFormed
    · intro k found hfound hqueued
      exact hlocks ▸ hall.1 k found hfound hqueued
    · intro k found hfound hphase
      exact hlocks ▸ hall.2 k found hfound hphase
    · intro key k hk
      have hold : s.locks key = some k := by
        rw [← hk]
        exact congrArg (fun l ↦ Locks.last l key) hlocks.symm
      exact hlocks ▸ hs.inMap key k hold

/-- Every event keeps the state sound. -/
theorem Sound.next (hs : Sound s) {event : Event κ} (h : step s event = some t) : Sound t := by
  cases event with
  | withLock key => exact hs.withLock h
  | step id what => exact hs.step_call h

end

/-! ### Exclusion and the map -/

/-- A call of a key is between the start and the end of its callback. -/
def LockState.Running (s : LockState κ) (key : κ) (id : Nat) : Prop :=
  ∃ call, s.calls[id]? = some call ∧ call.key = key ∧ call.phase = .running

def LockState.Waiting (s : LockState κ) (key : κ) (id : Nat) : Prop :=
  ∃ call, s.calls[id]? = some call ∧ call.key = key ∧ call.phase = .waiting

/-- A callback has started: it runs or has ended. -/
def LockState.Started (s : LockState κ) (key : κ) (id : Nat) : Prop :=
  ∃ call, s.calls[id]? = some call ∧ call.key = key ∧ call.phase ≠ .waiting

section

variable {s : LockState κ} {key : κ}

theorem Sound.canEnter_started (hs : Sound s) {id : Nat} (h : s.Started key id) :
    s.toLocks.canEnter id = true ∧ s.toLocks.nameOf id = some key := by
  obtain ⟨call, hcall, rfl, hphase⟩ := h
  rw [nameOf_toLocks, hcall]
  exact ⟨hs.started id call hcall hphase, rfl⟩

/-- At most one callback of a key runs. -/
theorem Sound.exclusive (hs : Sound s) {i j : Nat} (hi : s.Running key i)
    (hj : s.Running key j) : i = j := by
  have hrunning {id : Nat} (h : s.Running key id) : s.Started key id ∧ s.toLocks.Open id := by
    obtain ⟨call, hcall, hkey, hphase⟩ := h
    refine ⟨⟨call, hcall, hkey, by rw [hphase]; exact nofun⟩, open_toLocks.mpr ⟨call, hcall, ?_⟩⟩
    rw [hphase]
    rfl
  obtain ⟨hstartedi, hopeni⟩ := hrunning hi
  obtain ⟨hstartedj, hopenj⟩ := hrunning hj
  obtain ⟨henteri, hnamei⟩ := hs.canEnter_started hstartedi
  obtain ⟨henterj, hnamej⟩ := hs.canEnter_started hstartedj
  exact hs.wellFormed.exclusive henteri henterj hopeni hopenj hnamei hnamej

/-- A callback starts when the earlier calls of its key are done. -/
theorem Sound.done_before (hs : Sound s) {id before : Nat} {call : Call κ}
    (hid : s.toLocks.canEnter id = true) (hname : s.toLocks.nameOf id = some key)
    (hlt : before < id) (hcall : s.calls[before]? = some call) (hkey : call.key = key) :
    call.phase.isDone = true := by
  have hbefore : s.toLocks.nameOf before = some key := by rw [nameOf_toLocks, hcall, ← hkey]; rfl
  have hreleased := (hs.wellFormed.canEnter_iff hname).mp hid before hlt hbefore
  rw [open_toLocks] at hreleased
  by_contra hopen
  exact hreleased ⟨call, hcall, Bool.eq_false_iff.mpr hopen⟩

/-- The map has no entry for a key whose calls are all done. -/
theorem Sound.map_empty (hs : Sound s)
    (hdone : ∀ (id : Nat) (call : Call κ), s.calls[id]? = some call → call.key = key →
      call.phase.isDone = true) :
    s.locks key = none := by
  cases hlast : s.locks key with
  | none => rfl
  | some id =>
    obtain ⟨call, hcall, hopen⟩ := open_toLocks.mp (hs.inMap key id hlast)
    have hname := hs.wellFormed.last key id hlast
    rw [nameOf_toLocks, hcall] at hname
    have htrue := hdone id call hcall (Option.some.inj hname)
    rw [hopen] at htrue
    cases htrue

end

/-! ### Order -/

/-- The call whose callback an event starts. -/
def startOf : Event κ → Option Nat
  | .step id .start => some id
  | _ => none

/-- The calls whose callbacks start, in the order in which they do. -/
def startsOf (events : List (Event κ)) : List Nat := events.filterMap startOf

variable [DecidableEq κ]

def LockState.isOf (s : LockState κ) (key : κ) (id : Nat) : Bool :=
  s.calls[id]?.any fun call ↦ call.key = key

/-- The calls of a key in their order. -/
def LockState.callsOf (s : LockState κ) (key : κ) : List Nat :=
  (List.range s.calls.length).filter (s.isOf key)

/-- The callbacks of each key have started in the order of the calls, and no others have. -/
structure InOrder (starts : List Nat) (s : LockState κ) : Prop where
  sorted : ∀ key, (starts.filter (s.isOf key)).Pairwise (· < ·)
  mem : ∀ id, id ∈ starts ↔ ∃ key, s.Started key id

theorem isOf_iff {s : LockState κ} {key : κ} {id : Nat} :
    s.isOf key id = true ↔ ∃ call, s.calls[id]? = some call ∧ call.key = key := by
  simp only [LockState.isOf, Option.any_eq_true, decide_eq_true_eq]

/-- A strictly increasing list is the beginning of one that it exhausts from below. -/
theorem isPrefix_of_downward {l m : List Nat} (hl : l.Pairwise (· < ·)) (hm : m.Pairwise (· < ·))
    (hsub : ∀ a ∈ l, a ∈ m) (hdown : ∀ a ∈ l, ∀ b ∈ m, b < a → b ∈ l) : l <+: m := by
  induction l generalizing m with
  | nil => exact List.nil_prefix
  | cons a rest ih =>
    cases m with
    | nil => exact absurd (hsub a List.mem_cons_self) List.not_mem_nil
    | cons b others =>
      rw [List.pairwise_cons] at hl hm
      have hle : b ≤ a := by
        rcases List.mem_cons.mp (hsub a List.mem_cons_self) with rfl | ha
        · exact Nat.le_refl _
        · exact Nat.le_of_lt (hm.1 a ha)
      have heq : b = a := by
        by_contra hne
        rcases List.mem_cons.mp (hdown a List.mem_cons_self b List.mem_cons_self (by omega)) with
          rfl | hb
        · exact hne rfl
        · have := hl.1 b hb
          omega
      subst heq
      rw [List.prefix_cons_inj]
      apply ih hl.2 hm.2
      · intro c hc
        have hlt := hl.1 c hc
        rcases List.mem_cons.mp (hsub c (List.mem_cons_of_mem b hc)) with rfl | hmem
        · omega
        · exact hmem
      · intro c hc d hd hlt
        have hbelow := hm.1 d hd
        rcases List.mem_cons.mp (hdown c (List.mem_cons_of_mem b hc) d (List.mem_cons_of_mem b hd)
          hlt) with rfl | hmem
        · omega
        · exact hmem

/-- The starts of a key are the first of its calls. -/
theorem InOrder.isPrefix {starts : List Nat} {s : LockState κ} (h : InOrder starts s)
    (hs : Sound s) (key : κ) : starts.filter (s.isOf key) <+: s.callsOf key := by
  apply isPrefix_of_downward (h.sorted key) (List.pairwise_lt_range.filter _)
  · intro id hid
    obtain ⟨-, hof⟩ := List.mem_filter.mp hid
    obtain ⟨call, hcall, -⟩ := isOf_iff.mp hof
    have hlt := (List.getElem?_eq_some_iff.mp hcall).1
    exact List.mem_filter.mpr ⟨List.mem_range.mpr hlt, hof⟩
  · intro id hid before hbefore hlt
    obtain ⟨hstart, hof⟩ := List.mem_filter.mp hid
    obtain ⟨-, hbeforeOf⟩ := List.mem_filter.mp hbefore
    refine List.mem_filter.mpr ⟨(h.mem before).mpr ⟨key, ?_⟩, hbeforeOf⟩
    obtain ⟨other, hstarted⟩ := (h.mem id).mp hstart
    obtain ⟨henter, hname⟩ := hs.canEnter_started hstarted
    obtain ⟨call, hcall, hkey⟩ := isOf_iff.mp hof
    obtain ⟨found, hfound, hfoundKey⟩ := isOf_iff.mp hbeforeOf
    have hnameKey : s.toLocks.nameOf id = some key := by rw [nameOf_toLocks, hcall, ← hkey]; rfl
    have hdone := hs.done_before henter hnameKey hlt hfound hfoundKey
    refine ⟨found, hfound, hfoundKey, fun hwaiting ↦ ?_⟩
    rw [hwaiting] at hdone
    cases hdone

omit [DecidableEq κ] in
/-- Only the start of a callback ends the waiting. -/
theorem Call.step_waiting {previousSettled : Bool} {call next : Call κ} {what : Step}
    (h : call.step previousSettled what = some next) :
    (what = .start → call.phase = .waiting) ∧
      (next.phase ≠ .waiting ↔ call.phase ≠ .waiting ∨ what = .start) := by
  obtain ⟨rfl, -, -, rfl⟩ | ⟨rfl, -, hphase, rfl⟩ | ⟨_, rfl, hphase, rfl⟩ |
    ⟨_, rfl, hphase, rfl⟩ | ⟨rfl, -, -, rfl⟩ := Call.step_cases h <;> simp [*]

variable {s t : LockState κ} {starts : List Nat}

theorem inOrder_idle : InOrder [] (idle : LockState κ) where
  sorted := fun key ↦ .nil
  mem := fun id ↦ by simp [LockState.Started, idle]

theorem InOrder.withLock (h : InOrder starts s) {key : κ}
    (hstep : step s (.withLock key) = some t) : InOrder starts t := by
  obtain ⟨t', ht, -, hcalls⟩ := step_withLock s key
  obtain rfl : t' = t := Option.some.inj (ht.symm.trans hstep)
  have hstarted (id : Nat) : (∃ k, t'.Started k id) ↔ ∃ k, s.Started k id := by
    constructor
    · rintro ⟨k, call, hcall, hkey, hphase⟩
      rw [hcalls] at hcall
      obtain ⟨-, rfl⟩ | hold := getElem?_append_eq_some hcall
      · exact absurd rfl hphase
      · exact ⟨k, call, hold, hkey, hphase⟩
    · rintro ⟨k, call, hcall, hkey, hphase⟩
      have hlt := (List.getElem?_eq_some_iff.mp hcall).1
      refine ⟨k, call, ?_, hkey, hphase⟩
      rw [hcalls, List.getElem?_append_left hlt, hcall]
  constructor
  · intro k
    have hsame : starts.filter (t'.isOf k) = starts.filter (s.isOf k) := by
      apply List.filter_congr
      intro id hid
      obtain ⟨_, call, hcall, -⟩ := (h.mem id).mp hid
      have hlt := (List.getElem?_eq_some_iff.mp hcall).1
      rw [LockState.isOf, LockState.isOf, hcalls, List.getElem?_append_left hlt]
    rw [hsame]
    exact h.sorted k
  · intro id
    rw [h.mem, hstarted]

theorem isOf_step {id : Nat} {what : Step} (hstep : step s (.step id what) = some t) (key : κ) :
    t.isOf key = s.isOf key := by
  obtain ⟨call, next, hcall, hnext, hcalls, -⟩ := step_eq_some hstep
  obtain ⟨hkey, -⟩ := Call.step_keeps hnext
  have hlt := (List.getElem?_eq_some_iff.mp hcall).1
  funext k
  rw [LockState.isOf, LockState.isOf, hcalls, List.getElem?_set]
  by_cases hk : id = k
  · subst hk
    rw [if_pos rfl, if_pos hlt, hcall]
    simp [hkey]
  · rw [if_neg hk]

theorem InOrder.step_call (h : InOrder starts s) (hs : Sound s) {id : Nat} {what : Step}
    (hstep : step s (.step id what) = some t) :
    InOrder (starts ++ (startOf (.step id what : Event κ)).toList) t := by
  obtain ⟨call, next, hcall, hnext, hcalls, -⟩ := step_eq_some hstep
  obtain ⟨hkey, -⟩ := Call.step_keeps hnext
  obtain ⟨hwaiting, hphases⟩ := Call.step_waiting hnext
  have hlt := (List.getElem?_eq_some_iff.mp hcall).1
  have hstarted (k : Nat) : (∃ key, t.Started key k) ↔
      (∃ key, s.Started key k) ∨ (k = id ∧ what = .start) := by
    constructor
    · rintro ⟨key, found, hfound, -, hphase⟩
      rw [hcalls] at hfound
      obtain ⟨rfl, rfl⟩ | ⟨-, hold⟩ := getElem?_set_eq_some hfound
      · rcases hphases.mp hphase with hbefore | hstart
        · exact .inl ⟨call.key, call, hcall, rfl, hbefore⟩
        · exact .inr ⟨rfl, hstart⟩
      · exact .inl ⟨found.key, found, hold, rfl, hphase⟩
    · intro hor
      by_cases hk : id = k
      · subst hk
        refine ⟨next.key, next, by rw [hcalls, List.getElem?_set_self hlt], rfl, ?_⟩
        apply hphases.mpr
        rcases hor with ⟨key, found, hfound, -, hphase⟩ | ⟨-, hstart⟩
        · obtain rfl : call = found := Option.some.inj (hcall.symm.trans hfound)
          exact .inl hphase
        · exact .inr hstart
      · rcases hor with ⟨key, found, hfound, hrest⟩ | ⟨rfl, -⟩
        · exact ⟨key, found, by rw [hcalls, List.getElem?_set_ne hk, hfound], hrest⟩
        · exact absurd rfl hk
  by_cases hstart : what = .start
  · subst hstart
    constructor
    · intro key
      rw [isOf_step hstep, List.filter_append, List.pairwise_append]
      refine ⟨h.sorted key, List.Pairwise.filter _ (List.pairwise_singleton _ _), ?_⟩
      intro earlier hearlier now hnow
      obtain ⟨hmem, hof⟩ := List.mem_filter.mp hearlier
      obtain ⟨hnow, hnowOf⟩ := List.mem_filter.mp hnow
      obtain rfl : now = id := List.mem_singleton.mp hnow
      obtain ⟨found, hfound, hfoundKey⟩ := isOf_iff.mp hnowOf
      obtain rfl : call = found := Option.some.inj (hcall.symm.trans hfound)
      obtain ⟨other, hother⟩ := (h.mem earlier).mp hmem
      obtain ⟨henter, hname⟩ := hs.canEnter_started hother
      obtain ⟨old, hold, holdKey⟩ := isOf_iff.mp hof
      have hnameKey : s.toLocks.nameOf earlier = some key := by
        rw [nameOf_toLocks, hold, ← holdKey]
        rfl
      rcases Nat.lt_trichotomy earlier now with hbefore | rfl | hafter
      · exact hbefore
      · obtain ⟨started, hget, -, hphase⟩ := hother
        obtain rfl : call = started := Option.some.inj (hcall.symm.trans hget)
        exact absurd (hwaiting rfl) hphase
      · -- a call that has started does not overtake one of its key
        have hdone := hs.done_before henter hnameKey hafter hcall hfoundKey
        rw [hwaiting rfl] at hdone
        cases hdone
    · intro k
      rw [hstarted, List.mem_append, h.mem]
      simp [startOf]
  · have hnone : startOf (.step id what : Event κ) = none := by
      cases what with
      | start => exact absurd rfl hstart
      | link => rfl
      | finish threw => rfl
      | release => rfl
      | settle => rfl
    rw [hnone, Option.toList_none, List.append_nil]
    constructor
    · intro key
      rw [isOf_step hstep]
      exact h.sorted key
    · intro k
      rw [hstarted, h.mem]
      simp [hstart]

/-- A run starts the callbacks of each key in the order of its calls. -/
theorem run_inOrder {events : List (Event κ)} (h : runEvents step s events = some t)
    (hs : Sound s) (hstarts : InOrder starts s) :
    Sound t ∧ InOrder (starts ++ startsOf events) t := by
  induction events generalizing s starts with
  | nil =>
    cases h
    rw [startsOf, List.filterMap_nil, List.append_nil]
    exact ⟨hs, hstarts⟩
  | cons event rest ih =>
    rw [runEvents] at h
    cases hstep : step s event with
    | none => simp [hstep] at h
    | some middle =>
      simp only [hstep] at h
      have hnext : InOrder (starts ++ (startOf event).toList) middle := by
        cases event with
        | withLock key =>
          show InOrder (starts ++ []) middle
          rw [List.append_nil]
          exact hstarts.withLock hstep
        | step id what => exact hstarts.step_call hs hstep
      obtain ⟨hsound, horder⟩ := ih h (hs.next hstep) hnext
      have hsplit : startsOf (event :: rest) = (startOf event).toList ++ startsOf rest := by
        rw [startsOf, startsOf, List.filterMap_cons]
        cases startOf event <;> rfl
      rw [hsplit, ← List.append_assoc]
      exact ⟨hsound, horder⟩

/-! ### Progress -/

/-- A step of a promise of the given key: no new call, no end of a callback. -/
def OwnStep (key : κ) (s : LockState κ) : Event κ → Prop
  | .withLock _ => False
  | .step id what => s.isOf key id = true ∧ ∀ threw, what ≠ .finish threw

/-- A step that settles promises of the given key. -/
def SettlingStep (key : κ) (s : LockState κ) (event : Event κ) : Prop :=
  OwnStep key s event ∧ startOf event = none

/-- What settling does to the calls: no callback starts, those that have ended stay so, and so
do the promises that have settled. -/
def Settles (s t : LockState κ) : Prop :=
  ∀ (id : Nat) (call : Call κ), s.calls[id]? = some call → ∃ next, t.calls[id]? = some next ∧
    next.key = call.key ∧ next.previous = call.previous ∧
    (call.phase = .waiting → next.phase = .waiting) ∧
    (call.phase.isOver = true → next.phase.isOver = true) ∧
    (call.queued = .settled → next.queued = .settled)

omit [DecidableEq κ] in
theorem Settles.refl (s : LockState κ) : Settles s s :=
  fun _ call h ↦ ⟨call, h, rfl, rfl, id, id, id⟩

omit [DecidableEq κ] in
theorem Settles.trans {s t u : LockState κ} (h : Settles s t) (h' : Settles t u) :
    Settles s u := by
  intro id call hcall
  obtain ⟨next, hnext, hkey, hprevious, hwaiting, hover, hsettled⟩ := h id call hcall
  obtain ⟨last, hlast, hkey', hprevious', hwaiting', hover', hsettled'⟩ := h' id next hnext
  exact ⟨last, hlast, hkey'.trans hkey, hprevious'.trans hprevious,
    fun h ↦ hwaiting' (hwaiting h), fun h ↦ hover' (hover h), fun h ↦ hsettled' (hsettled h)⟩

theorem settles_step {key : κ} {event : Event κ} (hown : SettlingStep key s event)
    (h : step s event = some t) : Settles s t := by
  cases event with
  | withLock key => exact hown.1.elim
  | step id what =>
    obtain ⟨call, next, hcall, hnext, hcalls, -⟩ := step_eq_some h
    have hlt := (List.getElem?_eq_some_iff.mp hcall).1
    intro k found hfound
    rw [hcalls]
    by_cases hk : id = k
    · subst hk
      obtain rfl : call = found := Option.some.inj (hcall.symm.trans hfound)
      refine ⟨next, List.getElem?_set_self hlt, ?_⟩
      obtain ⟨rfl, -, hfresh, rfl⟩ | ⟨rfl, -, -, -⟩ | ⟨threw, rfl, -, -⟩ |
        ⟨threw, rfl, hphase, rfl⟩ | ⟨rfl, -, -, rfl⟩ := Call.step_cases hnext
      · refine ⟨rfl, rfl, fun h ↦ h, fun h ↦ h, fun hsettled ↦ ?_⟩
        rw [hfresh] at hsettled
        cases hsettled
      · cases hown.2
      · exact absurd rfl (hown.1.2 threw)
      · refine ⟨rfl, rfl, fun hwaiting ↦ ?_, fun _ ↦ rfl, fun h ↦ h⟩
        rw [hphase] at hwaiting
        cases hwaiting
      · exact ⟨rfl, rfl, fun h ↦ h, fun h ↦ h, fun _ ↦ rfl⟩
    · have hsame : (s.calls.set id next)[k]? = some found := by
        rw [List.getElem?_set_ne hk, hfound]
      exact ⟨found, hsame, rfl, rfl, fun h ↦ h, fun h ↦ h, fun h ↦ h⟩

/-- A step of a call that is possible is one of the state. -/
theorem exists_step {id : Nat} {call next : Call κ} {what : Step}
    (hcall : s.calls[id]? = some call)
    (hnext : call.step (s.previousSettled call) what = some next) :
    ∃ t, step s (.step id what) = some t ∧ t.calls = s.calls.set id next := by
  simp only [step, hcall, hnext, Option.map_some]
  exact ⟨_, rfl, rfl⟩

/-- A run that settles promises keeps the state sound. -/
theorem settles_run {key : κ} (h : Runs step (SettlingStep key) s t) (hs : Sound s) :
    Sound t ∧ Settles s t :=
  ⟨h.keeps (fun _ _ _ hsound _ hstep ↦ hsound.next hstep) hs,
    h.relates Settles.refl (fun _ _ _ ↦ Settles.trans)
      (fun _ _ _ (_ : True) _ _ ↦ trivial) (fun _ _ _ _ hown hstep ↦ settles_step hown hstep)
      trivial⟩

/-- One step that settles a promise, as a run. -/
theorem exists_settling {key : κ} {id : Nat} {call next : Call κ} {what : Step}
    (hcall : s.calls[id]? = some call) (hkey : call.key = key)
    (hnext : call.step (s.previousSettled call) what = some next)
    (hfinish : ∀ threw, what ≠ .finish threw) (hstart : what ≠ .start) :
    ∃ t, Runs step (SettlingStep key) s t ∧ t.calls[id]? = some next := by
  obtain ⟨t, hstep, hcalls⟩ := exists_step hcall hnext
  have hlt := (List.getElem?_eq_some_iff.mp hcall).1
  have hown : OwnStep key s (.step id what) := ⟨isOf_iff.mpr ⟨call, hcall, hkey⟩, hfinish⟩
  have hnone : startOf (.step id what : Event κ) = none := by
    cases what with
    | start => exact absurd rfl hstart
    | link => rfl
    | finish threw => rfl
    | release => rfl
    | settle => rfl
  exact ⟨t, .single ⟨hown, hnone⟩ hstep, by rw [hcalls, List.getElem?_set_self hlt]⟩

/-- The promise of a call settles, once its callback has ended and the promise before it has
settled. -/
theorem exists_settled_of_previous {key : κ} {id : Nat} {call : Call κ}
    (hcall : s.calls[id]? = some call) (hkey : call.key = key) (hover : call.phase.isOver = true)
    (hprevious : s.previousSettled call = true) :
    ∃ t, Runs step (SettlingStep key) s t ∧
      ∃ next, t.calls[id]? = some next ∧ next.queued = .settled := by
  -- the handler has run
  obtain ⟨t, ht, linked, hlinked, hlinkedKey, hlinkedOver, hnotFresh⟩ :
      ∃ t, Runs step (SettlingStep key) s t ∧ ∃ next, t.calls[id]? = some next ∧
        next.key = key ∧ next.phase.isOver = true ∧ next.queued ≠ .fresh := by
    by_cases hfresh : call.queued = .fresh
    · have hnext : call.step (s.previousSettled call) .link =
          some { call with queued := .linked } := by
        rw [Call.step, if_pos ⟨hprevious, hfresh⟩]
      obtain ⟨t, hrun, hget⟩ := exists_settling hcall hkey hnext nofun nofun
      exact ⟨t, hrun, _, hget, hkey, hover, nofun⟩
    · exact ⟨s, .refl, call, hcall, hkey, hover, hfresh⟩
  -- the call has released
  obtain ⟨u, hu, done, hdone, hdoneKey, hisDone, hdoneFresh⟩ :
      ∃ u, Runs step (SettlingStep key) t u ∧ ∃ next, u.calls[id]? = some next ∧
        next.key = key ∧ next.phase.isDone = true ∧ next.queued ≠ .fresh := by
    cases hphase : linked.phase with
    | waiting => simp [hphase, Phase.isOver] at hlinkedOver
    | running => simp [hphase, Phase.isOver] at hlinkedOver
    | finished threw =>
      have hnext : linked.step (t.previousSettled linked) .release =
          some { linked with phase := .done threw } := by
        simp only [Call.step, hphase]
      obtain ⟨u, hrun, hget⟩ := exists_settling hlinked hlinkedKey hnext nofun nofun
      exact ⟨u, hrun, _, hget, hlinkedKey, rfl, hnotFresh⟩
    | done threw =>
      exact ⟨t, .refl, linked, hlinked, hlinkedKey, by rw [hphase]; rfl, hnotFresh⟩
  cases hqueued : done.queued with
  | fresh => exact absurd hqueued hdoneFresh
  | linked =>
    have hnext : done.step (u.previousSettled done) .settle =
        some { done with queued := .settled } := by
      rw [Call.step, if_pos ⟨hisDone, hqueued⟩]
    obtain ⟨v, hrun, hget⟩ := exists_settling hdone hdoneKey hnext nofun nofun
    exact ⟨v, (ht.trans hu).trans hrun, _, hget, rfl⟩
  | settled => exact ⟨u, ht.trans hu, done, hdone, hqueued⟩

/-- The promise of a call settles, once the callbacks of its key up to its own have ended. -/
theorem Sound.exists_settled {key : κ} (id : Nat) : ∀ {s : LockState κ}, Sound s →
    ∀ call, s.calls[id]? = some call → call.key = key →
    (∀ before found, before ≤ id → s.calls[before]? = some found → found.key = key →
      found.phase.isOver = true) →
    ∃ t, Runs step (SettlingStep key) s t ∧
      ∃ next, t.calls[id]? = some next ∧ next.queued = .settled := by
  induction id using Nat.strongRecOn with
  | ind id ih =>
    intro s hs call hcall hkey hover
    cases hprevious : call.previous with
    | none =>
      apply exists_settled_of_previous hcall hkey (hover id call (Nat.le_refl _) hcall hkey)
      rw [LockState.previousSettled, hprevious, Option.all_none]
    | some before =>
      obtain ⟨hlt, hname⟩ := hs.wellFormed.previous id _ before
        (by rw [getElem?_toLocks, hcall]; rfl) hprevious
      rw [nameOf_toLocks, Option.map_eq_some_iff] at hname
      obtain ⟨found, hfound, hfoundKey⟩ := hname
      obtain ⟨t, ht, settled, hsettled, hqueued⟩ :=
        ih before hlt hs found hfound (hfoundKey.trans hkey)
          fun k other hle hother hotherKey ↦ hover k other (by omega) hother hotherKey
      obtain ⟨-, hsettles⟩ := settles_run ht hs
      obtain ⟨next, hnext, hnextKey, hnextPrevious, -, hnextOver, -⟩ := hsettles id call hcall
      obtain ⟨u, hu, hlast⟩ := exists_settled_of_previous hnext (hnextKey.trans hkey)
        (hnextOver (hover id call (Nat.le_refl _) hcall hkey))
        (by rw [LockState.previousSettled, hnextPrevious, hprevious, Option.all_some, hsettled,
              Option.any_some, hqueued, decide_eq_true rfl])
      exact ⟨u, ht.trans hu, hlast⟩

/-- A call whose turn has come starts its callback by steps of promises of its own key. -/
theorem Sound.exists_start {key : κ} {id : Nat} (hs : Sound s) (hid : s.Waiting key id)
    (hover : ∀ (before : Nat) (found : Call κ), before < id → s.calls[before]? = some found →
      found.key = key → found.phase.isOver = true) :
    ∃ t, Runs step (OwnStep key) s t ∧ t.Running key id := by
  obtain ⟨call, hcall, hkey, hwaiting⟩ := hid
  obtain ⟨t, ht, next, hnext, hnextKey, hnextWaiting, hprevious⟩ :
      ∃ t, Runs step (SettlingStep key) s t ∧ ∃ next, t.calls[id]? = some next ∧
        next.key = key ∧ next.phase = .waiting ∧ t.previousSettled next = true := by
    cases hprevious : call.previous with
    | none =>
      refine ⟨s, .refl, call, hcall, hkey, hwaiting, ?_⟩
      rw [LockState.previousSettled, hprevious, Option.all_none]
    | some before =>
      obtain ⟨hlt, hname⟩ := hs.wellFormed.previous id _ before
        (by rw [getElem?_toLocks, hcall]; rfl) hprevious
      rw [nameOf_toLocks, Option.map_eq_some_iff] at hname
      obtain ⟨found, hfound, hfoundKey⟩ := hname
      obtain ⟨t, ht, settled, hsettled, hqueued⟩ :=
        hs.exists_settled before found hfound (hfoundKey.trans hkey)
          fun k other hle hother hotherKey ↦ hover k other (by omega) hother hotherKey
      obtain ⟨-, hsettles⟩ := settles_run ht hs
      obtain ⟨next, hnext, hnextKey, hnextPrevious, hnextWaiting, -⟩ := hsettles id call hcall
      refine ⟨t, ht, next, hnext, hnextKey.trans hkey, hnextWaiting hwaiting, ?_⟩
      rw [LockState.previousSettled, hnextPrevious, hprevious, Option.all_some, hsettled,
        Option.any_some, hqueued, decide_eq_true rfl]
  have hstart : next.step (t.previousSettled next) .start =
      some { next with phase := .running } := by
    rw [Call.step, if_pos ⟨hprevious, hnextWaiting⟩]
  obtain ⟨u, hstep, hcalls⟩ := exists_step hnext hstart
  have hlt := (List.getElem?_eq_some_iff.mp hnext).1
  have hown : OwnStep key t (.step id .start) := ⟨isOf_iff.mpr ⟨next, hnext, hnextKey⟩, nofun⟩
  have hrunning : u.calls[id]? = some { next with phase := .running } := by
    rw [hcalls, List.getElem?_set_self hlt]
  exact ⟨u, (ht.mono fun _ _ h ↦ h.1).trans (.single hown hstep), _, hrunning, hnextKey, rfl⟩

/-- In every run, whatever the callbacks do and however the steps of the promises are scheduled:
one callback of a key runs at a time; the callbacks of a key start in the order of their calls; a
call whose predecessors of the same key have ended needs nothing but steps of promises of this
key to start; and a key without pending calls has no entry in the map. -/
theorem withLock_fair {events : List (Event κ)} {s : LockState κ}
    (h : runEvents step idle events = some s) (key : κ) :
    (∀ i j, s.Running key i → s.Running key j → i = j) ∧
    (startsOf events).filter (s.isOf key) <+: s.callsOf key ∧
    (∀ id, s.Waiting key id →
      (∀ (before : Nat) (call : Call κ), before < id → s.calls[before]? = some call →
        call.key = key → call.phase.isOver = true) →
      ∃ t, Runs step (OwnStep key) s t ∧ t.Running key id) ∧
    ((∀ (id : Nat) (call : Call κ), s.calls[id]? = some call → call.key = key →
        call.phase.isDone = true) →
      s.locks key = none) := by
  obtain ⟨hs, horder⟩ := run_inOrder h sound_idle inOrder_idle
  exact ⟨fun i j ↦ hs.exclusive, horder.isPrefix hs key, fun id ↦ hs.exists_start, hs.map_empty⟩

/-- Three calls, two of them of one key. The callback of the first throws. -/
def sampleEvents : List (Event Nat) :=
  [.withLock 0, .withLock 0, .withLock 1, .step 0 .start, .step 2 .start, .step 0 .link,
    .step 0 (.finish true), .step 0 .release, .step 0 .settle, .step 1 .start]

theorem withLock_fair_sample :
    ∃ s, runEvents step idle sampleEvents = some s ∧ s.Running 0 1 ∧ s.Running 1 2 ∧
      startsOf sampleEvents = [0, 2, 1] ∧
      (startsOf sampleEvents).filter (s.isOf 0) <+: s.callsOf 0 :=
  ⟨_, rfl, ⟨_, rfl, rfl, rfl⟩, ⟨_, rfl, rfl, rfl⟩, rfl,
    (@withLock_fair Nat _ sampleEvents _ rfl 0).2.1⟩

end TimeProofs.Relay.WithLock
