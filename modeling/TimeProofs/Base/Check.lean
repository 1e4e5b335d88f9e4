import Mathlib.Data.List.Basic
import Mathlib.Data.List.Nodup

/-!
# Checks that accumulate issues

A check reports the issues it finds, or throws. Checks are sequenced without stopping at an
issue; only a throw stops them. The rules here say when a composed check is clean (reports
nothing) and when it returns (does not throw).
-/

namespace TimeProofs.Base

/-- The issues a check reports, or what it throws. -/
abbrev Check (ε ι : Type) := Except ε (List ι)

/-- A computation that does not throw. -/
def Returns {ε α : Type} (r : Except ε α) : Prop := ∃ a, r = .ok a

theorem returns_ok {ε α : Type} (a : α) : Returns (.ok a : Except ε α) := ⟨a, rfl⟩

theorem not_returns_error {ε α : Type} (e : ε) : ¬Returns (.error e : Except ε α) := nofun

theorem returns_map {ε α β : Type} {r : Except ε α} {f : α → β} :
    Returns (r.map f) ↔ Returns r := by
  cases r <;> simp [Returns, Except.map]

/-- A sequenced success splits into its two parts. -/
theorem bind_eq_ok_iff {ε α β : Type} {r : Except ε α} {k : α → Except ε β} {b : β} :
    (r >>= k) = .ok b ↔ ∃ a, r = .ok a ∧ k a = .ok b := by
  cases r <;> simp [bind, Except.bind]

theorem map_eq_ok_iff {ε α β : Type} {r : Except ε α} {f : α → β} {b : β} :
    r.map f = .ok b ↔ ∃ a, r = .ok a ∧ f a = b := by
  cases r <;> simp [Except.map]

/-- All results of a list, or its first error. -/
def collect {ε α : Type} : List (Except ε α) → Except ε (List α)
  | [] => .ok []
  | r :: rest =>
    match r, collect rest with
    | .error e, _ => .error e
    | .ok _, .error e => .error e
    | .ok a, .ok as => .ok (a :: as)

theorem collect_eq_ok {ε α : Type} {l : List (Except ε α)} {as : List α} :
    collect l = .ok as ↔ l = as.map .ok := by
  induction l generalizing as with
  | nil => cases as <;> simp [collect]
  | cons r rest ih =>
    cases r with
    | error e => cases as <;> simp [collect]
    | ok a =>
      cases hr : collect rest with
      | error e =>
        have hne (bs : List α) : rest ≠ bs.map .ok := fun h ↦ by
          rw [ih.mpr h] at hr
          cases hr
        cases as <;> simp [collect, hr, hne]
      | ok bs =>
        have hbs := ih.mp hr
        cases as with
        | nil => simp [collect, hr]
        | cons b as =>
          have hinj : bs = as ↔ rest = as.map .ok := by
            rw [← ih, hr]
            simp
          simp [collect, hr, hinj]

/-- A list of results succeeds when each of them does. -/
theorem collect_map_eq_ok {ε α β : Type} {l : List α} {g : α → Except ε β} {P : α → Prop}
    {f : α → β} (h : ∀ a ∈ l, ∀ b, g a = .ok b ↔ P a ∧ b = f a) (bs : List β) :
    collect (l.map g) = .ok bs ↔ (∀ a ∈ l, P a) ∧ bs = l.map f := by
  rw [collect_eq_ok]
  induction l generalizing bs with
  | nil => cases bs <;> simp
  | cons a l ih =>
    have ha := h a (by simp)
    have hl := ih fun b hb ↦ h b (by simp [hb])
    cases bs with
    | nil => simp
    | cons b bs => simp only [List.map_cons, List.cons.injEq, List.forall_mem_cons, ha, hl]; grind

/-- A list of results succeeds when every result does. -/
theorem returns_collect {ε α : Type} {l : List (Except ε α)} :
    Returns (collect l) ↔ ∀ r ∈ l, Returns r := by
  induction l with
  | nil => simp [collect, returns_ok]
  | cons r rest ih =>
    rw [List.forall_mem_cons, ← ih]
    cases r with
    | error e => simp [collect, Returns]
    | ok a => cases hr : collect rest <;> simp [collect, hr, Returns]

namespace Check

variable {ε ι α σ : Type}

/-- A check that reports nothing. -/
def Clean (c : Check ε ι) : Prop := c = .ok []

/-- Report an issue when a condition holds. -/
def issueWhen (condition : Bool) (issue : ι) : Check ε ι :=
  .ok (if condition then [issue] else [])

/-- Checks one after the other. -/
def both : Check ε ι → Check ε ι → Check ε ι
  | .error e, _ => .error e
  | .ok _, .error e => .error e
  | .ok found, .ok more => .ok (found ++ more)

/-- Checks in order. -/
def all : List (Check ε ι) → Check ε ι
  | [] => .ok []
  | c :: rest => both c (all rest)

/-- A check of each element, which may depend on what the elements before it left behind. -/
def visit (next : σ → Nat → α → σ) (check : σ → Nat → α → Check ε ι) :
    σ → Nat → List α → Check ε ι
  | _, _, [] => .ok []
  | s, i, x :: rest => both (check s i x) (visit next check (next s i x) (i + 1) rest)

/-- A check of each element with its index. -/
def each (check : Nat → α → Check ε ι) (xs : List α) : Check ε ι :=
  visit (fun _ _ _ ↦ ()) (fun _ ↦ check) () 0 xs

/-- What a visit leaves behind. -/
def visited (next : σ → Nat → α → σ) : σ → Nat → List α → σ
  | s, _, [] => s
  | s, i, x :: rest => visited next (next s i x) (i + 1) rest

@[simp] theorem clean_ok_nil : Clean (.ok [] : Check ε ι) := rfl

@[simp] theorem clean_issueWhen {condition : Bool} {issue : ι} :
    Clean (issueWhen condition issue : Check ε ι) ↔ condition = false := by
  cases condition <;> simp [Clean, issueWhen]

@[simp] theorem clean_both {c d : Check ε ι} : Clean (both c d) ↔ Clean c ∧ Clean d := by
  cases c <;> cases d <;> simp [Clean, both]

@[simp] theorem clean_all {cs : List (Check ε ι)} : Clean (all cs) ↔ ∀ c ∈ cs, Clean c := by
  induction cs with
  | nil => simp [all]
  | cons c rest ih => simp [all, ih]

/-- A clean visit is clean at each element, in the state its predecessors leave. -/
theorem clean_visit {next : σ → Nat → α → σ} {check : σ → Nat → α → Check ε ι} {s : σ}
    {i : Nat} {xs : List α} :
    Clean (visit next check s i xs) ↔ ∀ before x after, xs = before ++ x :: after →
      Clean (check (visited next s i before) (i + before.length) x) := by
  induction xs generalizing s i with
  | nil => simp [visit]
  | cons y rest ih =>
    rw [visit, clean_both, ih]
    constructor
    · rintro ⟨hy, hrest⟩ before x after hsplit
      cases before with
      | nil =>
        obtain ⟨rfl, rfl⟩ := List.cons.inj hsplit
        exact hy
      | cons z before =>
        obtain ⟨rfl, rfl⟩ := List.cons.inj hsplit
        have := hrest before x after rfl
        rwa [visited, List.length_cons, Nat.add_comm before.length, ← Nat.add_assoc]
    · intro h
      refine ⟨h [] y rest rfl, fun before x after hsplit ↦ ?_⟩
      have := h (y :: before) x after (by rw [hsplit, List.cons_append])
      rwa [visited, List.length_cons, Nat.add_comm before.length, ← Nat.add_assoc] at this

theorem clean_each {check : Nat → α → Check ε ι} {xs : List α} :
    Clean (each check xs) ↔ ∀ i x, xs[i]? = some x → Clean (check i x) := by
  rw [each, clean_visit]
  constructor
  · intro h i x hx
    obtain ⟨hi, rfl⟩ := List.getElem?_eq_some_iff.mp hx
    have := h (xs.take i) xs[i] (xs.drop (i + 1)) (by simp)
    simpa [Nat.min_eq_left (Nat.le_of_lt hi)] using this
  · rintro h before x after rfl
    rw [Nat.zero_add]
    exact h before.length x (by simp)

/-- A condition that does not mention the index holds of every element. -/
theorem clean_each_const {check : Nat → α → Check ε ι} {P : α → Prop} {xs : List α}
    (h : ∀ i x, Clean (check i x) ↔ P x) : Clean (each check xs) ↔ ∀ x ∈ xs, P x := by
  simp only [clean_each, h, List.mem_iff_getElem?]
  grind

/-- The keys that a visit has seen at its end. -/
theorem seen_visited {κ : Type} {next : σ → Nat → α → σ} (seen : σ → κ → Prop)
    {key : α → Option κ} (hnext : ∀ s i x k, seen (next s i x) k ↔ seen s k ∨ key x = some k)
    {s : σ} {i : Nat} {xs : List α} {k : κ} :
    seen (visited next s i xs) k ↔ seen s k ∨ k ∈ xs.filterMap key := by
  induction xs generalizing s i with
  | nil => simp [visited]
  | cons x rest ih =>
    rw [visited, ih, hnext, or_assoc]
    simp only [List.mem_filterMap, List.mem_cons, exists_eq_or_imp]

/-- A visit that keeps the keys it has seen is clean when each element is right and no key comes
twice. -/
theorem clean_visit_distinct {κ : Type} {next : σ → Nat → α → σ}
    {check : σ → Nat → α → Check ε ι} {P : α → Prop} (seen : σ → κ → Prop) (key : α → Option κ)
    (hnext : ∀ s i x k, seen (next s i x) k ↔ seen s k ∨ key x = some k)
    (hcheck : ∀ s i x, Clean (check s i x) ↔ P x ∧ ∀ k, key x = some k → ¬seen s k)
    {s : σ} {i : Nat} {xs : List α} :
    Clean (visit next check s i xs) ↔
      (∀ x ∈ xs, P x) ∧ (xs.filterMap key).Nodup ∧ ∀ k ∈ xs.filterMap key, ¬seen s k := by
  induction xs generalizing s i with
  | nil => simp [visit]
  | cons x rest ih =>
    rw [visit, clean_both, hcheck, ih]
    simp only [hnext, not_or, List.forall_mem_cons]
    cases hk : key x with
    | none =>
      simp only [reduceCtorEq, false_imp_iff, implies_true, and_true, not_false_eq_true,
        List.filterMap_cons_none hk]
      exact and_assoc.symm
    | some k =>
      simp only [Option.some.injEq, forall_eq', List.filterMap_cons_some hk, List.nodup_cons,
        List.forall_mem_cons]
      constructor
      · rintro ⟨⟨hx, hs⟩, hrest, hnodup, hnew⟩
        exact ⟨⟨hx, hrest⟩, ⟨fun hmem ↦ (hnew k hmem).2 rfl, hnodup⟩, hs,
          fun k' hk' ↦ (hnew k' hk').1⟩
      · rintro ⟨⟨hx, hrest⟩, ⟨hnot, hnodup⟩, hs, hnew⟩
        exact ⟨⟨hx, hs⟩, hrest, hnodup, fun k' hk' ↦
          ⟨hnew k' hk', fun h ↦ hnot (h ▸ hk')⟩⟩

@[simp] theorem returns_issueWhen {condition : Bool} {issue : ι} :
    Returns (issueWhen condition issue : Check ε ι) := returns_ok _

@[simp] theorem returns_both {c d : Check ε ι} :
    Returns (both c d) ↔ Returns c ∧ Returns d := by
  cases c <;> cases d <;> simp [Returns, both]

@[simp] theorem returns_all {cs : List (Check ε ι)} :
    Returns (all cs) ↔ ∀ c ∈ cs, Returns c := by
  induction cs with
  | nil => simp [all, returns_ok]
  | cons c rest ih => simp [all, ih]

/-- A visit returns when the check returns at each element, whatever the state. -/
theorem returns_visit {next : σ → Nat → α → σ} {check : σ → Nat → α → Check ε ι} {s : σ}
    {i : Nat} {xs : List α} {P : α → Prop} (h : ∀ s i x, Returns (check s i x) ↔ P x) :
    Returns (visit next check s i xs) ↔ ∀ x ∈ xs, P x := by
  induction xs generalizing s i with
  | nil => simp [visit, returns_ok]
  | cons y rest ih => rw [visit, returns_both, h, ih, List.forall_mem_cons]

theorem returns_each {check : Nat → α → Check ε ι} {xs : List α} {P : α → Prop}
    (h : ∀ i x, Returns (check i x) ↔ P x) : Returns (each check xs) ↔ ∀ x ∈ xs, P x :=
  returns_visit fun _ ↦ h

/-- A visit that returns has checked every element in some state. -/
theorem returns_of_visit {next : σ → Nat → α → σ} {check : σ → Nat → α → Check ε ι} {s : σ}
    {i : Nat} {xs : List α} {x : α} (h : Returns (visit next check s i xs)) (hx : x ∈ xs) :
    ∃ s i, Returns (check s i x) := by
  induction xs generalizing s i with
  | nil => cases hx
  | cons y rest ih =>
    rw [visit, returns_both] at h
    rcases List.mem_cons.mp hx with rfl | hrest
    · exact ⟨s, i, h.1⟩
    · exact ih h.2 hrest

/-- A check that returns and reports an issue with the given property. -/
def Reports (P : ι → Prop) (c : Check ε ι) : Prop :=
  ∃ issues, c = .ok issues ∧ ∃ issue ∈ issues, P issue

variable {P : ι → Prop}

@[simp] theorem reports_ok {issues : List ι} :
    Reports P (.ok issues : Check ε ι) ↔ ∃ issue ∈ issues, P issue := by
  simp [Reports]

@[simp] theorem not_reports_error {e : ε} : ¬Reports P (.error e : Check ε ι) := by
  simp [Reports]

@[simp] theorem reports_issueWhen {condition : Bool} {issue : ι} :
    Reports P (issueWhen condition issue : Check ε ι) ↔ condition = true ∧ P issue := by
  cases condition <;> simp [issueWhen]

/-- Of two checks that return the issues are reported together. -/
theorem reports_both {c d : Check ε ι} (h : Returns (both c d)) :
    Reports P (both c d) ↔ Reports P c ∨ Reports P d := by
  rw [returns_both] at h
  obtain ⟨⟨found, rfl⟩, ⟨more, rfl⟩⟩ := h
  simp only [both, reports_ok, List.mem_append, or_and_right, exists_or]

theorem reports_all {cs : List (Check ε ι)} (h : Returns (all cs)) :
    Reports P (all cs) ↔ ∃ c ∈ cs, Reports P c := by
  induction cs with
  | nil => simp [all]
  | cons c rest ih =>
    rw [all] at h ⊢
    rw [reports_both h, ih (returns_both.mp h).2]
    simp only [List.mem_cons, exists_eq_or_imp]

end Check

end TimeProofs.Base
