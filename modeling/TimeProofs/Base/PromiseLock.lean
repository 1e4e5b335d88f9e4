import Mathlib.Data.List.Basic

/-!
# Locks made of promises

A lock map of a single-threaded program: every name keeps the promise of its last caller. A
caller waits for the promise it finds and leaves one of its own, which settles once the one
before it has settled and the caller has released. A caller whose promise is still the last one
when it releases removes it from the map.
-/

namespace TimeProofs.Base

/-- A call of a lock: the promise that it found, and whether it has released. -/
structure Ticket (κ : Type) where
  name : κ
  previous : Option Nat
  released : Bool

/-- The calls of the locks, numbered in their order, and the promises in the map. -/
structure Locks (κ : Type) where
  tickets : List (Ticket κ)
  last : κ → Option Nat

namespace Locks

variable {κ : Type}

/-- No lock has been called. -/
def none : Locks κ := ⟨[], fun _ ↦ .none⟩

/-- Whether the promise of a call has settled; each promise refers to an earlier one. -/
def settledWithin (tickets : List (Ticket κ)) : Nat → Nat → Bool
  | 0, _ => false
  | fuel + 1, id =>
    match tickets[id]? with
    | some ticket => ticket.released && ticket.previous.all (settledWithin tickets fuel)
    | .none => false

def settled (l : Locks κ) (id : Nat) : Bool := settledWithin l.tickets (id + 1) id

/-- Whether a call may go on: the promise that it found has settled. -/
def canEnter (l : Locks κ) (id : Nat) : Bool :=
  match l.tickets[id]? with
  | some ticket => ticket.previous.all l.settled
  | .none => false

/-- A call of the lock of a name; its number is the number of calls before it. -/
def enqueue [DecidableEq κ] (l : Locks κ) (name : κ) : Locks κ where
  tickets := l.tickets ++ [⟨name, l.last name, false⟩]
  last := fun k ↦ if k = name then some l.tickets.length else l.last k

/-- A call releases. -/
def release (l : Locks κ) (id : Nat) : Locks κ where
  tickets := l.tickets.modify id fun ticket ↦ { ticket with released := true }
  last := fun k ↦ if l.last k = some id then .none else l.last k

/-- The calls of a list release, one after the other. -/
def releaseAll (l : Locks κ) (ids : List Nat) : Locks κ := ids.foldl release l

/-- The name that a call locks. -/
def nameOf (l : Locks κ) (id : Nat) : Option κ := l.tickets[id]?.map Ticket.name

/-- A call that has not released. -/
def Open (l : Locks κ) (id : Nat) : Prop :=
  ∃ ticket, l.tickets[id]? = some ticket ∧ ticket.released = false

/-- The calls that a promise stands for. -/
inductive Reaches (l : Locks κ) : Option Nat → Nat → Prop
  | here {id : Nat} : Reaches l (some id) id
  | there {id reached : Nat} {ticket : Ticket κ} : l.tickets[id]? = some ticket →
      Reaches l ticket.previous reached → Reaches l (some id) reached

/-- The promises of each name form one chain that holds every call that has not released. -/
structure WellFormed (l : Locks κ) : Prop where
  previous : ∀ id ticket before, l.tickets[id]? = some ticket → ticket.previous = some before →
    before < id ∧ l.nameOf before = some ticket.name
  last : ∀ name id, l.last name = some id → l.nameOf id = some name
  ahead : ∀ id later ticket, l.Open id → id < later → l.tickets[later]? = some ticket →
    l.nameOf id = some ticket.name → l.Reaches ticket.previous id
  inMap : ∀ id name, l.Open id → l.nameOf id = some name → l.Reaches (l.last name) id

theorem nameOf_eq_some {l : Locks κ} {id : Nat} {name : κ} :
    l.nameOf id = some name ↔ ∃ ticket, l.tickets[id]? = some ticket ∧ ticket.name = name := by
  rw [nameOf, Option.map_eq_some_iff]

theorem Open.lt {l : Locks κ} {id : Nat} (h : l.Open id) : id < l.tickets.length := by
  obtain ⟨ticket, hticket, -⟩ := h
  exact (List.getElem?_eq_some_iff.mp hticket).1

theorem lt_of_nameOf {l : Locks κ} {id : Nat} {name : κ} (h : l.nameOf id = some name) :
    id < l.tickets.length := by
  obtain ⟨ticket, hticket, -⟩ := nameOf_eq_some.mp h
  exact (List.getElem?_eq_some_iff.mp hticket).1

theorem named_of_canEnter {l : Locks κ} {id : Nat} (h : l.canEnter id = true) :
    ∃ name, l.nameOf id = some name := by
  unfold canEnter at h
  split at h
  · next ticket hticket => exact ⟨ticket.name, nameOf_eq_some.mpr ⟨ticket, hticket, rfl⟩⟩
  · cases h

/-- A promise stands for calls of its own name, none of them later. -/
theorem WellFormed.reaches_le {l : Locks κ} (h : l.WellFormed) {promise : Option Nat}
    {reached : Nat} (hreaches : l.Reaches promise reached) {id : Nat} (hid : promise = some id)
    {name : κ} (hname : l.nameOf id = some name) :
    reached ≤ id ∧ l.nameOf reached = some name := by
  induction hreaches generalizing id with
  | here =>
    cases hid
    exact ⟨Nat.le_refl _, hname⟩
  | @there found reached ticket hticket hrest ih =>
    cases hid
    obtain ⟨ticket', hticket', hname'⟩ := nameOf_eq_some.mp hname
    rw [hticket] at hticket'
    cases hticket'
    cases hprevious : ticket.previous with
    | none =>
      rw [hprevious] at hrest
      cases hrest
    | some before =>
      obtain ⟨hlt, hbefore⟩ := h.previous _ _ _ hticket hprevious
      obtain ⟨hle, hreached⟩ := ih hprevious (hname' ▸ hbefore)
      exact ⟨by omega, hreached⟩

/-- A promise has settled when no call that it stands for is open. -/
theorem WellFormed.settled_iff {l : Locks κ} (h : l.WellFormed) {id : Nat}
    (hid : id < l.tickets.length) :
    l.settled id = true ↔ ∀ reached, l.Reaches (some id) reached → ¬l.Open reached := by
  have hfuel (fuel : Nat) : ∀ id, id < fuel → id < l.tickets.length →
      (settledWithin l.tickets fuel id = true ↔
        ∀ reached, l.Reaches (some id) reached → ¬l.Open reached) := by
    induction fuel with
    | zero => exact fun id hlt ↦ absurd hlt (Nat.not_lt_zero id)
    | succ fuel ih =>
      intro id hlt hid
      have hticket : l.tickets[id]? = some l.tickets[id] := List.getElem?_eq_getElem hid
      rw [settledWithin, hticket]
      dsimp only
      rw [Bool.and_eq_true]
      have hopen : l.Open id ↔ l.tickets[id].released = false := by
        constructor
        · rintro ⟨ticket, hfound, hreleased⟩
          rw [hticket] at hfound
          cases hfound
          exact hreleased
        · exact fun hreleased ↦ ⟨_, hticket, hreleased⟩
      cases hprevious : l.tickets[id].previous with
      | none =>
        simp only [Option.all_none, and_true]
        constructor
        · intro hreleased reached hreaches
          cases hreaches with
          | here =>
            rw [hopen, hreleased]
            exact nofun
          | there hfound hrest =>
            rw [hticket] at hfound
            cases hfound
            rw [hprevious] at hrest
            cases hrest
        · intro hall
          have hnot := hall id .here
          rwa [hopen, Bool.not_eq_false] at hnot
      | some before =>
        obtain ⟨hbefore, hname⟩ := h.previous _ _ _ hticket hprevious
        have hiff := ih before (by omega) (lt_of_nameOf hname)
        rw [Option.all_some, hiff]
        constructor
        · rintro ⟨hreleased, hall⟩ reached hreaches
          cases hreaches with
          | here =>
            rw [hopen, hreleased]
            exact nofun
          | there hfound hrest =>
            rw [hticket] at hfound
            cases hfound
            rw [hprevious] at hrest
            exact hall reached hrest
        · intro hall
          have hnot := hall id .here
          rw [hopen, Bool.not_eq_false] at hnot
          refine ⟨hnot, fun reached hreaches ↦ hall reached ?_⟩
          exact .there hticket (hprevious ▸ hreaches)
  exact hfuel (id + 1) id (by omega) hid

/-- A call may go on exactly when every earlier call of its name has released. -/
theorem WellFormed.canEnter_iff {l : Locks κ} (h : l.WellFormed) {id : Nat} {name : κ}
    (hname : l.nameOf id = some name) :
    l.canEnter id = true ↔ ∀ before < id, l.nameOf before = some name → ¬l.Open before := by
  obtain ⟨ticket, hticket, rfl⟩ := nameOf_eq_some.mp hname
  rw [canEnter, hticket]
  dsimp only
  constructor
  · intro hall before hlt hbefore hopen
    have hreaches := h.ahead before id ticket hopen hlt hticket hbefore
    cases hprevious : ticket.previous with
    | none =>
      rw [hprevious] at hreaches
      cases hreaches
    | some found =>
      rw [hprevious] at hreaches hall
      obtain ⟨-, hfound⟩ := h.previous _ _ _ hticket hprevious
      exact (h.settled_iff (lt_of_nameOf hfound)).mp hall before hreaches hopen
  · intro hall
    cases hprevious : ticket.previous with
    | none => rfl
    | some found =>
      obtain ⟨hlt, hfound⟩ := h.previous _ _ _ hticket hprevious
      apply (h.settled_iff (lt_of_nameOf hfound)).mpr
      intro reached hreaches
      obtain ⟨hle, hreached⟩ := h.reaches_le hreaches rfl hfound
      exact hall reached (by omega) hreached

/-- A promise has settled exactly when the calls of its name up to its own have released. -/
theorem WellFormed.settled_iff_released {l : Locks κ} (h : l.WellFormed) {id : Nat} {name : κ}
    (hname : l.nameOf id = some name) :
    l.settled id = true ↔ ∀ before ≤ id, l.nameOf before = some name → ¬l.Open before := by
  rw [h.settled_iff (lt_of_nameOf hname)]
  obtain ⟨ticket, hticket, rfl⟩ := nameOf_eq_some.mp hname
  constructor
  · intro hall before hle hbefore hopen
    rcases Nat.lt_or_eq_of_le hle with hlt | rfl
    · exact hall before (.there hticket (h.ahead before id ticket hopen hlt hticket hbefore)) hopen
    · exact hall before .here hopen
  · intro hall reached hreaches
    obtain ⟨hle, hreached⟩ := h.reaches_le hreaches rfl hname
    exact hall reached hle hreached

theorem named_of_settled {l : Locks κ} {id : Nat} (h : l.settled id = true) :
    ∃ name, l.nameOf id = some name := by
  rw [settled, settledWithin] at h
  split at h
  · next ticket hticket => exact ⟨ticket.name, nameOf_eq_some.mpr ⟨ticket, hticket, rfl⟩⟩
  · cases h

/-- The promise of a call that could go on and has released settles. -/
theorem WellFormed.settled_of_released {l : Locks κ} (h : l.WellFormed) {id : Nat}
    (henter : l.canEnter id = true) (hreleased : ¬l.Open id) : l.settled id = true := by
  obtain ⟨name, hname⟩ := named_of_canEnter henter
  rw [h.settled_iff_released hname]
  intro before hle hbefore
  rcases Nat.lt_or_eq_of_le hle with hlt | rfl
  · exact (h.canEnter_iff hname).mp henter before hlt hbefore
  · exact hreleased

/-- Two calls of one name that may go on and have not released are the same. -/
theorem WellFormed.exclusive {l : Locks κ} (h : l.WellFormed) {i j : Nat} {name : κ}
    (hi : l.canEnter i = true) (hj : l.canEnter j = true) (hopeni : l.Open i) (hopenj : l.Open j)
    (hnamei : l.nameOf i = some name) (hnamej : l.nameOf j = some name) : i = j := by
  rcases Nat.lt_trichotomy i j with hlt | heq | hlt
  · exact absurd hopeni ((h.canEnter_iff hnamej).mp hj i hlt hnamei)
  · exact heq
  · exact absurd hopenj ((h.canEnter_iff hnamei).mp hi j hlt hnamej)

/-! ### Operations -/

theorem wellFormed_none : (none : Locks κ).WellFormed where
  previous := fun id ticket before h ↦ by simp [none] at h
  last := fun name id h ↦ by cases h
  ahead := fun id later ticket h ↦ by
    obtain ⟨ticket, hticket, -⟩ := h
    simp [none] at hticket
  inMap := fun id name h ↦ by
    obtain ⟨ticket, hticket, -⟩ := h
    simp [none] at hticket

section

variable [DecidableEq κ] {l : Locks κ}

theorem getElem?_enqueue (l : Locks κ) (name : κ) (id : Nat) :
    (l.enqueue name).tickets[id]? =
      if id = l.tickets.length then some ⟨name, l.last name, false⟩ else l.tickets[id]? := by
  rw [enqueue]
  rcases Nat.lt_trichotomy id l.tickets.length with hlt | heq | hlt
  · rw [List.getElem?_append_left hlt, if_neg (by omega)]
  · rw [if_pos heq, heq, List.getElem?_concat_length]
  · rw [if_neg (by omega), List.getElem?_eq_none (by simp; omega),
      List.getElem?_eq_none (by omega)]

theorem nameOf_enqueue (l : Locks κ) (name : κ) (id : Nat) :
    (l.enqueue name).nameOf id =
      if id = l.tickets.length then some name else l.nameOf id := by
  rw [nameOf, getElem?_enqueue]
  split <;> rfl

theorem nameOf_enqueue_of_some {name other : κ} {id : Nat} (h : l.nameOf id = some other) :
    (l.enqueue name).nameOf id = some other := by
  have hlt := lt_of_nameOf h
  rw [nameOf_enqueue, if_neg (by omega), h]

theorem open_enqueue (l : Locks κ) (name : κ) (id : Nat) :
    (l.enqueue name).Open id ↔ l.Open id ∨ id = l.tickets.length := by
  unfold Open
  rw [getElem?_enqueue]
  by_cases hid : id = l.tickets.length
  · simp [hid]
  · simp [hid]

theorem reaches_enqueue {promise : Option Nat} {reached : Nat} (name : κ)
    (h : l.Reaches promise reached) : (l.enqueue name).Reaches promise reached := by
  induction h with
  | here => exact .here
  | @there id reached ticket hticket _ ih =>
    have hlt : id < l.tickets.length := (List.getElem?_eq_some_iff.mp hticket).1
    refine .there ?_ ih
    rw [getElem?_enqueue, if_neg (by omega), hticket]

/-- A new call keeps the chains. -/
theorem WellFormed.enqueue (h : l.WellFormed) (name : κ) : (l.enqueue name).WellFormed where
  previous := by
    intro id ticket before hticket hprevious
    rw [getElem?_enqueue] at hticket
    split at hticket
    · next hid =>
      cases hticket
      have hbefore := h.last _ _ hprevious
      have hlt := lt_of_nameOf hbefore
      exact ⟨by omega, nameOf_enqueue_of_some hbefore⟩
    · obtain ⟨hlt, hbefore⟩ := h.previous _ _ _ hticket hprevious
      exact ⟨hlt, nameOf_enqueue_of_some hbefore⟩
  last := by
    intro other id hlast
    simp only [Locks.enqueue] at hlast
    split at hlast
    · next hname =>
      cases hlast
      rw [nameOf_enqueue, if_pos rfl, hname]
    · exact nameOf_enqueue_of_some (h.last _ _ hlast)
  ahead := by
    intro id later ticket hopen hlt hticket hname
    rw [getElem?_enqueue] at hticket
    split at hticket
    · next hlater =>
      -- the new call finds the promise that was in the map
      cases hticket
      have hold : l.Open id := ((open_enqueue l name id).mp hopen).resolve_right (by omega)
      rw [nameOf_enqueue, if_neg (by omega)] at hname
      exact reaches_enqueue name (h.inMap id _ hold hname)
    · have hbound : later < l.tickets.length := (List.getElem?_eq_some_iff.mp hticket).1
      have hold : l.Open id := ((open_enqueue l name id).mp hopen).resolve_right (by omega)
      rw [nameOf_enqueue, if_neg (by omega)] at hname
      exact reaches_enqueue name (h.ahead id later ticket hold hlt hticket hname)
  inMap := by
    intro id other hopen hname
    simp only [Locks.enqueue]
    by_cases hid : id = l.tickets.length
    · rw [nameOf_enqueue, if_pos hid] at hname
      cases hname
      rw [if_pos rfl, hid]
      exact .here
    · have hold : l.Open id := ((open_enqueue l name id).mp hopen).resolve_right hid
      rw [nameOf_enqueue, if_neg hid] at hname
      have hreaches := reaches_enqueue name (h.inMap id other hold hname)
      have hnew : (l.enqueue name).tickets[l.tickets.length]? =
          some ⟨name, l.last name, false⟩ := by rw [getElem?_enqueue, if_pos rfl]
      split
      · next hother =>
        rw [hother] at hreaches
        exact .there hnew hreaches
      · exact hreaches

/-- Once a call may go on, it stays so. -/
theorem WellFormed.canEnter_enqueue (h : l.WellFormed) (name : κ) {id : Nat}
    (henter : l.canEnter id = true) : (l.enqueue name).canEnter id = true := by
  obtain ⟨other, hother⟩ := named_of_canEnter henter
  have hlt := lt_of_nameOf hother
  rw [(h.enqueue name).canEnter_iff (nameOf_enqueue_of_some hother)]
  intro before hbefore hname hopen
  rw [nameOf_enqueue, if_neg (by omega)] at hname
  rw [open_enqueue] at hopen
  exact (h.canEnter_iff hother).mp henter before hbefore hname (hopen.resolve_right (by omega))

/-- A promise that has settled stays so. -/
theorem WellFormed.settled_enqueue (h : l.WellFormed) (name : κ) {id : Nat}
    (hsettled : l.settled id = true) : (l.enqueue name).settled id = true := by
  obtain ⟨other, hother⟩ := named_of_settled hsettled
  have hlt := lt_of_nameOf hother
  rw [(h.enqueue name).settled_iff_released (nameOf_enqueue_of_some hother)]
  intro before hbefore hname hopen
  rw [nameOf_enqueue, if_neg (by omega)] at hname
  rw [open_enqueue] at hopen
  exact (h.settled_iff_released hother).mp hsettled before hbefore hname
    (hopen.resolve_right (by omega))

end

section

variable {l : Locks κ}

theorem getElem?_release (l : Locks κ) (id k : Nat) :
    (l.release id).tickets[k]? = l.tickets[k]?.map fun ticket ↦
      if id = k then { ticket with released := true } else ticket := by
  rw [release, List.getElem?_modify]
  by_cases hk : id = k
  · simp [hk]
  · simp [hk]

theorem nameOf_release (l : Locks κ) (id k : Nat) : (l.release id).nameOf k = l.nameOf k := by
  rw [nameOf, getElem?_release, nameOf, Option.map_map]
  congr 1
  funext ticket
  by_cases hk : id = k <;> simp [hk]

theorem open_release (l : Locks κ) (id k : Nat) : (l.release id).Open k ↔ l.Open k ∧ k ≠ id := by
  unfold Open
  rw [getElem?_release]
  by_cases hk : id = k
  · simp [hk]
  · simp [hk, Ne.symm hk]

theorem reaches_release {promise : Option Nat} {reached : Nat} (id : Nat) :
    (l.release id).Reaches promise reached ↔ l.Reaches promise reached := by
  constructor
  · intro h
    induction h with
    | here => exact .here
    | @there k reached ticket hticket _ ih =>
      rw [getElem?_release, Option.map_eq_some_iff] at hticket
      obtain ⟨old, hold, rfl⟩ := hticket
      refine .there hold ?_
      split at ih <;> exact ih
  · intro h
    induction h with
    | here => exact .here
    | @there k reached ticket hticket _ ih =>
      have hnow : (l.release id).tickets[k]? =
          some (if id = k then { ticket with released := true } else ticket) := by
        rw [getElem?_release, hticket]
        rfl
      refine .there hnow ?_
      split <;> exact ih

/-- The release of a call that may go on keeps the chains. -/
theorem WellFormed.release (h : l.WellFormed) {id : Nat} (henter : l.canEnter id = true) :
    (l.release id).WellFormed where
  previous := by
    intro k ticket before hticket hprevious
    rw [getElem?_release, Option.map_eq_some_iff] at hticket
    obtain ⟨old, hold, rfl⟩ := hticket
    rw [nameOf_release]
    split at hprevious
    · next hk =>
      rw [if_pos hk]
      exact h.previous k old before hold hprevious
    · next hk =>
      rw [if_neg hk]
      exact h.previous k old before hold hprevious
  last := by
    intro name k hlast
    rw [nameOf_release]
    simp only [Locks.release] at hlast
    split at hlast
    · cases hlast
    · exact h.last name k hlast
  ahead := by
    intro k later ticket hopen hlt hticket hname
    rw [getElem?_release, Option.map_eq_some_iff] at hticket
    obtain ⟨old, hold, rfl⟩ := hticket
    rw [nameOf_release] at hname
    rw [reaches_release]
    have hopen' := ((open_release l id k).mp hopen).1
    split at hname
    · next hlater =>
      rw [if_pos hlater]
      exact h.ahead k later old hopen' hlt hold hname
    · next hlater =>
      rw [if_neg hlater]
      exact h.ahead k later old hopen' hlt hold hname
  inMap := by
    intro k name hopen hname
    rw [nameOf_release] at hname
    rw [reaches_release]
    obtain ⟨hopen', hne⟩ := (open_release l id k).mp hopen
    have hreaches := h.inMap k name hopen' hname
    simp only [Locks.release]
    split
    · next hlast =>
      -- the last call of a name releases: no other call of the name is open
      rw [hlast] at hreaches
      have hid := h.last name id hlast
      obtain ⟨hle, -⟩ := h.reaches_le hreaches rfl hid
      exact absurd hopen' ((h.canEnter_iff hid).mp henter k (by omega) hname)
    · exact hreaches

theorem WellFormed.canEnter_release (h : l.WellFormed) {id k : Nat}
    (hid : l.canEnter id = true) (henter : l.canEnter k = true) :
    (l.release id).canEnter k = true := by
  obtain ⟨name, hname⟩ := named_of_canEnter henter
  rw [(h.release hid).canEnter_iff (by rw [nameOf_release]; exact hname)]
  intro before hbefore hbeforeName hopen
  rw [nameOf_release] at hbeforeName
  rw [open_release] at hopen
  exact (h.canEnter_iff hname).mp henter before hbefore hbeforeName hopen.1

theorem WellFormed.settled_release (h : l.WellFormed) {id k : Nat}
    (hid : l.canEnter id = true) (hsettled : l.settled k = true) :
    (l.release id).settled k = true := by
  obtain ⟨name, hname⟩ := named_of_settled hsettled
  rw [(h.release hid).settled_iff_released (by rw [nameOf_release]; exact hname)]
  intro before hbefore hbeforeName hopen
  rw [nameOf_release] at hbeforeName
  rw [open_release] at hopen
  exact (h.settled_iff_released hname).mp hsettled before hbefore hbeforeName hopen.1

theorem nameOf_releaseAll (l : Locks κ) (ids : List Nat) (k : Nat) :
    (l.releaseAll ids).nameOf k = l.nameOf k := by
  induction ids generalizing l with
  | nil => rfl
  | cons id rest ih => rw [releaseAll, List.foldl_cons, ← releaseAll, ih, nameOf_release]

theorem open_releaseAll (l : Locks κ) (ids : List Nat) (k : Nat) :
    (l.releaseAll ids).Open k ↔ l.Open k ∧ k ∉ ids := by
  induction ids generalizing l with
  | nil => simp [releaseAll]
  | cons id rest ih =>
    rw [releaseAll, List.foldl_cons, ← releaseAll, ih, open_release, List.mem_cons, not_or,
      and_assoc]

/-- The release of calls that may go on keeps the chains, and what may go on. -/
theorem WellFormed.releaseAll (h : l.WellFormed) {ids : List Nat}
    (hids : ∀ id ∈ ids, l.canEnter id = true) :
    (l.releaseAll ids).WellFormed ∧
      ∀ k, l.canEnter k = true → (l.releaseAll ids).canEnter k = true := by
  induction ids generalizing l with
  | nil => exact ⟨h, fun k hk ↦ hk⟩
  | cons id rest ih =>
    have hid := hids id List.mem_cons_self
    obtain ⟨hwell, henter⟩ := ih (h.release hid) fun k hk ↦
      h.canEnter_release hid (hids k (List.mem_cons_of_mem id hk))
    exact ⟨hwell, fun k hk ↦ henter k (h.canEnter_release hid hk)⟩

end

end Locks

end TimeProofs.Base
