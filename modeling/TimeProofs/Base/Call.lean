import Mathlib.Data.List.Basic

/-!
# Calls on a shared state

An asynchronous call as it runs when nothing else does: it resolves, it rejects, or it waits for
good. The rules say which calls leave the state alone, and which of them do so when they reject.
-/

namespace TimeProofs.Base

/-- What has become of a call. -/
inductive Outcome (ε α : Type) where
  | resolved (a : α)
  | rejected (reason : ε)
  | pending

/-- A call on a state. -/
def Call (σ ε α : Type) : Type := σ → Outcome ε α × σ

namespace Call

variable {σ ε α β : Type}

/-- A settled call. -/
def resolve (a : α) : Call σ ε α := fun s ↦ (.resolved a, s)

/-- A call that rejects. -/
def reject (reason : ε) : Call σ ε α := fun s ↦ (.rejected reason, s)

/-- A call that never settles. -/
def wait : Call σ ε α := fun s ↦ (.pending, s)

/-- `await`: the continuation runs in the state that the call leaves, once it resolves. -/
def await (c : Call σ ε α) (k : α → Call σ ε β) : Call σ ε β := fun s ↦
  match c s with
  | (.resolved a, t) => k a t
  | (.rejected reason, t) => (.rejected reason, t)
  | (.pending, t) => (.pending, t)

instance : Monad (Call σ ε) where
  pure := resolve
  bind := await

/-- A part that does not touch the state. -/
def ofExcept : Except ε α → Call σ ε α
  | .ok a => resolve a
  | .error reason => reject reason

/-- Reading from the state. -/
def read (f : σ → α) : Call σ ε α := fun s ↦ (.resolved (f s), s)

/-- Changing the state. -/
def write (f : σ → σ) : Call σ ε Unit := fun s ↦ (.resolved (), f s)

variable {s : σ}

@[simp] theorem run_pure (a : α) : (pure a : Call σ ε α) s = (.resolved a, s) := rfl

@[simp] theorem run_reject (reason : ε) :
    (reject reason : Call σ ε α) s = (.rejected reason, s) := rfl

@[simp] theorem run_wait : (wait : Call σ ε α) s = (.pending, s) := rfl

@[simp] theorem run_ok (a : α) : (ofExcept (.ok a) : Call σ ε α) s = (.resolved a, s) := rfl

@[simp] theorem run_error (reason : ε) :
    (ofExcept (.error reason) : Call σ ε α) s = (.rejected reason, s) := rfl

@[simp] theorem run_read (f : σ → α) : (read f : Call σ ε α) s = (.resolved (f s), s) := rfl

@[simp] theorem run_write (f : σ → σ) : (write f : Call σ ε Unit) s = (.resolved (), f s) := rfl

theorem run_bind (c : Call σ ε α) (k : α → Call σ ε β) :
    (c >>= k) s = match c s with
      | (.resolved a, t) => k a t
      | (.rejected reason, t) => (.rejected reason, t)
      | (.pending, t) => (.pending, t) := rfl

@[simp] theorem run_bind_resolved {c : Call σ ε α} {a : α} {t : σ} (h : c s = (.resolved a, t))
    (k : α → Call σ ε β) : (c >>= k) s = k a t := by rw [run_bind, h]

@[simp] theorem run_bind_rejected {c : Call σ ε α} {reason : ε} {t : σ}
    (h : c s = (.rejected reason, t)) (k : α → Call σ ε β) :
    (c >>= k) s = (.rejected reason, t) := by rw [run_bind, h]

/-- A call that resolves after another has resolved ran in the state that the first one left. -/
theorem run_bind_eq_resolved {c : Call σ ε α} {k : α → Call σ ε β} {b : β} {u : σ} :
    (c >>= k) s = (.resolved b, u) ↔ ∃ a t, c s = (.resolved a, t) ∧ k a t = (.resolved b, u) := by
  rw [run_bind]
  rcases hc : c s with ⟨outcome, t⟩
  cases outcome with
  | resolved a => simp
  | rejected reason => simp
  | pending => simp

/-- The value of a call that resolves, with the state that it leaves. -/
def result (c : Call σ ε α) (s : σ) : Option (α × σ) :=
  match c s with
  | (.resolved a, t) => some (a, t)
  | _ => none

theorem result_eq_some {c : Call σ ε α} {a : α} {t : σ} :
    c.result s = some (a, t) ↔ c s = (.resolved a, t) := by
  unfold result
  rcases c s with ⟨outcome, u⟩
  cases outcome <;> simp

/-- The call never changes the state. -/
def ReadOnly (c : Call σ ε α) : Prop := ∀ s, (c s).2 = s

/-- The call does not change the state when it rejects. -/
def KeepsOnReject (c : Call σ ε α) : Prop :=
  ∀ s reason t, c s = (.rejected reason, t) → t = s

/-- The call never rejects. -/
def NeverRejects (c : Call σ ε α) : Prop := ∀ s reason t, c s ≠ (.rejected reason, t)

theorem readOnly_pure (a : α) : ReadOnly (pure a : Call σ ε α) := fun _ ↦ rfl

theorem readOnly_reject (reason : ε) : ReadOnly (reject reason : Call σ ε α) := fun _ ↦ rfl

theorem readOnly_wait : ReadOnly (wait : Call σ ε α) := fun _ ↦ rfl

theorem readOnly_read (f : σ → α) : ReadOnly (read f : Call σ ε α) := fun _ ↦ rfl

theorem readOnly_ofExcept (r : Except ε α) : ReadOnly (ofExcept r : Call σ ε α) := by
  cases r <;> exact fun _ ↦ rfl

theorem ReadOnly.bind {c : Call σ ε α} {k : α → Call σ ε β} (hc : ReadOnly c)
    (hk : ∀ a, ReadOnly (k a)) : ReadOnly (c >>= k) := by
  intro s
  have hs := hc s
  rw [run_bind]
  rcases h : c s with ⟨outcome, t⟩
  rw [h] at hs
  cases outcome with
  | resolved a => exact (hk a t).trans hs
  | rejected reason => exact hs
  | pending => exact hs

theorem ReadOnly.keepsOnReject {c : Call σ ε α} (hc : ReadOnly c) : KeepsOnReject c := by
  intro s reason t h
  have hs := hc s
  rwa [h] at hs

theorem neverRejects_pure (a : α) : NeverRejects (pure a : Call σ ε α) := fun _ _ _ ↦ by simp

theorem neverRejects_write (f : σ → σ) : NeverRejects (write f : Call σ ε Unit) :=
  fun _ _ _ ↦ by simp

theorem neverRejects_ofExcept {r : Except ε α} {a : α} (h : r = .ok a) :
    NeverRejects (ofExcept r : Call σ ε α) := fun _ _ _ ↦ by simp [h]

theorem NeverRejects.bind {c : Call σ ε α} {k : α → Call σ ε β} (hc : NeverRejects c)
    (hk : ∀ a, NeverRejects (k a)) : NeverRejects (c >>= k) := by
  intro s reason u
  rw [run_bind]
  rcases h : c s with ⟨outcome, t⟩
  cases outcome with
  | resolved a => exact hk a t reason u
  | rejected other => exact absurd h (hc s other t)
  | pending => simp

theorem NeverRejects.keepsOnReject {c : Call σ ε α} (hc : NeverRejects c) : KeepsOnReject c :=
  fun s reason t h ↦ absurd h (hc s reason t)

/-- Reading first does not matter. -/
theorem KeepsOnReject.after_read {c : Call σ ε α} {k : α → Call σ ε β} (hc : ReadOnly c)
    (hk : ∀ a, KeepsOnReject (k a)) : KeepsOnReject (c >>= k) := by
  intro s reason u h
  have hs := hc s
  rw [run_bind] at h
  rcases hr : c s with ⟨outcome, t⟩
  rw [hr] at h hs
  cases outcome with
  | resolved a => exact (hk a t reason u h).trans hs
  | rejected other =>
    cases h
    exact hs
  | pending => cases h

/-- What cannot reject may follow. -/
theorem KeepsOnReject.bind {c : Call σ ε α} {k : α → Call σ ε β} (hc : KeepsOnReject c)
    (hk : ∀ a, NeverRejects (k a)) : KeepsOnReject (c >>= k) := by
  intro s reason u h
  rw [run_bind] at h
  rcases hr : c s with ⟨outcome, t⟩
  rw [hr] at h
  cases outcome with
  | resolved a => exact absurd h (hk a t reason u)
  | rejected other =>
    cases h
    exact hc s reason _ hr
  | pending => cases h

end Call

end TimeProofs.Base
