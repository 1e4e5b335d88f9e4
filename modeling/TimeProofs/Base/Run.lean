import Mathlib.Data.List.Basic

/-!
# Runs

Runs of a system that takes one event after another, some events not being possible in a state.
A run is read together with a condition that each of its events meets in the state that it
happens in. A run on given events is evaluated.
-/

namespace TimeProofs.Base

variable {σ ε : Type}

/-- The runs of a step function whose events all meet a condition. -/
inductive Runs (step : σ → ε → Option σ) (Good : σ → ε → Prop) : σ → σ → Prop
  | refl {s : σ} : Runs step Good s s
  | next {s t u : σ} {e : ε} : Runs step Good s t → Good t e → step t e = some u →
      Runs step Good s u

namespace Runs

variable {step : σ → ε → Option σ} {Good Better : σ → ε → Prop} {s t u : σ}

theorem single {e : ε} (hgood : Good s e) (hstep : step s e = some t) : Runs step Good s t :=
  .next .refl hgood hstep

theorem trans (h : Runs step Good s t) (h' : Runs step Good t u) : Runs step Good s u := by
  induction h' with
  | refl => exact h
  | next _ hgood hstep ih => exact .next ih hgood hstep

/-- A run under a stronger condition is one under a weaker condition. -/
theorem mono (hle : ∀ s e, Better s e → Good s e) (h : Runs step Better s t) :
    Runs step Good s t := by
  induction h with
  | refl => exact .refl
  | next _ hgood hstep ih => exact .next ih (hle _ _ hgood) hstep

/-- What every event keeps holds after a run. -/
theorem keeps {Inv : σ → Prop}
    (hkeep : ∀ s e t, Inv s → Good s e → step s e = some t → Inv t) (h : Runs step Good s t)
    (hs : Inv s) : Inv t := by
  induction h with
  | refl => exact hs
  | next _ hgood hstep ih => exact hkeep _ _ _ ih hgood hstep

/-- What every event relates, when an invariant holds, a run relates. -/
theorem relates {Inv : σ → Prop} {R : σ → σ → Prop} (hrefl : ∀ s, R s s)
    (htrans : ∀ s t u, R s t → R t u → R s u)
    (hkeep : ∀ s e t, Inv s → Good s e → step s e = some t → Inv t)
    (hstep : ∀ s e t, Inv s → Good s e → step s e = some t → R s t) (h : Runs step Good s t)
    (hs : Inv s) : R s t := by
  induction h with
  | refl => exact hrefl _
  | next hrun hgood hnext ih =>
    exact htrans _ _ _ ih (hstep _ _ _ (hrun.keeps hkeep hs) hgood hnext)

end Runs

/-- The state after a list of events, when each of them is possible. -/
def runEvents (step : σ → ε → Option σ) : σ → List ε → Option σ
  | s, [] => some s
  | s, e :: rest =>
    match step s e with
    | some t => runEvents step t rest
    | none => none

theorem runEvents_cons {step : σ → ε → Option σ} {s t : σ} {e : ε} (h : step s e = some t)
    (rest : List ε) : runEvents step s (e :: rest) = runEvents step t rest := by
  rw [runEvents, h]

theorem runEvents_append {step : σ → ε → Option σ} {s t : σ} {events : List ε}
    (h : runEvents step s events = some t) (rest : List ε) :
    runEvents step s (events ++ rest) = runEvents step t rest := by
  induction events generalizing s with
  | nil =>
    cases h
    rfl
  | cons e others ih =>
    rw [runEvents] at h
    split at h
    · next u hu => rw [List.cons_append, runEvents_cons hu, ih h]
    · cases h

/-- A list of events that always meet the condition is a run. -/
theorem runs_of_runEvents {step : σ → ε → Option σ} {Good : σ → ε → Prop} {events : List ε}
    {s t : σ} (hgood : ∀ e ∈ events, ∀ s, Good s e) (h : runEvents step s events = some t) :
    Runs step Good s t := by
  induction events generalizing s with
  | nil =>
    cases h
    exact .refl
  | cons e rest ih =>
    rw [runEvents] at h
    split at h
    · next u hu =>
      have hrest := ih (fun e' he' ↦ hgood e' (List.mem_cons_of_mem e he')) h
      exact (Runs.single (hgood e List.mem_cons_self s) hu).trans hrest
    · cases h

/-- What every possible event keeps holds after a list of events. -/
theorem runEvents_keeps {step : σ → ε → Option σ} {Inv : σ → Prop}
    (hkeep : ∀ s e t, Inv s → step s e = some t → Inv t) {events : List ε} {s t : σ}
    (h : runEvents step s events = some t) (hs : Inv s) : Inv t := by
  have hrun : Runs step (fun _ _ ↦ True) s t := runs_of_runEvents (fun _ _ _ ↦ trivial) h
  exact hrun.keeps (fun s e t hs _ hstep ↦ hkeep s e t hs hstep) hs

/-- The state after a list of events, when each of them is possible and passes a check. -/
def runChecked (step : σ → ε → Option σ) (check : σ → ε → Bool) : σ → List ε → Option σ
  | s, [] => some s
  | s, e :: rest =>
    match check s e, step s e with
    | true, some t => runChecked step check t rest
    | _, _ => none

/-- A list of events that pass a check is a run under what the check ensures. -/
theorem runs_of_runChecked {step : σ → ε → Option σ} {check : σ → ε → Bool}
    {Good : σ → ε → Prop} {events : List ε} {s t : σ}
    (hgood : ∀ e ∈ events, ∀ s, check s e = true → Good s e)
    (h : runChecked step check s events = some t) : Runs step Good s t := by
  induction events generalizing s with
  | nil =>
    cases h
    exact .refl
  | cons e rest ih =>
    rw [runChecked] at h
    split at h
    · next u hcheck hu =>
      have hrest := ih (fun e' he' ↦ hgood e' (List.mem_cons_of_mem e he')) h
      exact (Runs.single (hgood e List.mem_cons_self s hcheck) hu).trans hrest
    · cases h

section

variable {α : Type} {parties : List α} {i j : Nat} {party next : α}

/-- A party after one of them has changed. -/
theorem getElem?_set_eq_some (h : (parties.set i next)[j]? = some party) :
    (j = i ∧ party = next) ∨ (j ≠ i ∧ parties[j]? = some party) := by
  by_cases hj : j = i
  · subst hj
    have hlt : j < parties.length := by
      have hlt := (List.getElem?_eq_some_iff.mp h).1
      rwa [List.length_set] at hlt
    rw [List.getElem?_set_self hlt] at h
    exact .inl ⟨rfl, (Option.some.inj h).symm⟩
  · rw [List.getElem?_set_ne (Ne.symm hj)] at h
    exact .inr ⟨hj, h⟩

theorem getElem?_set_self (h : parties[i]? = some party) (next : α) :
    (parties.set i next)[i]? = some next :=
  List.getElem?_set_self (List.getElem?_eq_some_iff.mp h).1

/-- A party after another one has joined. -/
theorem getElem?_append_eq_some (h : (parties ++ [next])[j]? = some party) :
    (j = parties.length ∧ party = next) ∨ parties[j]? = some party := by
  rcases Nat.lt_trichotomy j parties.length with hlt | heq | hlt
  · rw [List.getElem?_append_left hlt] at h
    exact .inr h
  · subst heq
    rw [List.getElem?_concat_length] at h
    exact .inl ⟨rfl, (Option.some.inj h).symm⟩
  · rw [List.getElem?_eq_none (by simp; omega)] at h
    cases h

end

end TimeProofs.Base
