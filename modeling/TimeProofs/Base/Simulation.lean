import TimeProofs.Base.Run

/-!
# Simulation

A system simulates another one when each step of the latter is one of its own steps on the same
event, or none. Every list of events of the simulated system then has a list of events of the
other one, which leaves out those that it has no step for, and related states are reached.
-/

namespace TimeProofs.Base

variable {σ τ ε δ : Type}

/-- Each step of the first system from related states is one of the second on an event that
stands for the same event, or leaves the state of the second related. -/
def Simulates (step : σ → ε → Option σ) (step' : τ → δ → Option τ) (standsFor : δ → ε)
    (Good : σ → ε → Prop) (R : σ → τ → Prop) : Prop :=
  ∀ s a e t, R s a → Good s e → step s e = some t →
    R t a ∨ ∃ e' b, standsFor e' = e ∧ step' a e' = some b ∧ R t b

namespace Simulates

variable {step : σ → ε → Option σ} {step' : τ → δ → Option τ} {standsFor : δ → ε}
  {Good : σ → ε → Prop} {R : σ → τ → Prop}

/-- A run of the first system is matched by one of the second on a part of its events. -/
theorem exists_run (h : Simulates step step' standsFor Good R) {events : List ε} {s t : σ} {a : τ}
    (hgood : ∀ e ∈ events, ∀ s, Good s e) (hrelated : R s a)
    (hrun : runEvents step s events = some t) :
    ∃ events' b, (events'.map standsFor).Sublist events ∧ runEvents step' a events' = some b ∧
      R t b := by
  induction events generalizing s a with
  | nil =>
    cases hrun
    exact ⟨[], a, .slnil, rfl, hrelated⟩
  | cons e rest ih =>
    rw [runEvents] at hrun
    split at hrun
    · next u hu =>
      have hrest (e' : ε) (he' : e' ∈ rest) := hgood e' (List.mem_cons_of_mem e he')
      rcases h s a e u hrelated (hgood e List.mem_cons_self s) hu with hsame | hstep
      · obtain ⟨events', b, hsublist, hrun', hb⟩ := ih hrest hsame hrun
        exact ⟨events', b, hsublist.cons e, hrun', hb⟩
      · obtain ⟨e', a', rfl, ha', hnext⟩ := hstep
        obtain ⟨events', b, hsublist, hrun', hb⟩ := ih hrest hnext hrun
        refine ⟨e' :: events', b, ?_, (runEvents_cons ha' events').trans hrun', hb⟩
        exact hsublist.cons_cons (standsFor e')
    · cases hrun

end Simulates

end TimeProofs.Base
