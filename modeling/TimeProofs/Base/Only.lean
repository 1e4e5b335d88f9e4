import Mathlib.Data.List.Basic
import Mathlib.Data.List.Nodup

/-!
# The only element with a property

An element that a list holds at exactly one place, and what a first-match search finds when the
keys of the list are distinct.
-/

namespace TimeProofs.Base

variable {α κ : Type} {P : α → Prop} {xs : List α} {x y : α}

/-- `x` stands at one place of the list and has the property; no other place has it. -/
def IsOnly (P : α → Prop) (xs : List α) (x : α) : Prop :=
  ∃ before after, xs = before ++ x :: after ∧ P x ∧ ∀ y ∈ before ++ after, ¬P y

theorem IsOnly.mem (h : IsOnly P xs x) : x ∈ xs := by
  obtain ⟨before, after, rfl, -⟩ := h
  simp

theorem IsOnly.prop (h : IsOnly P xs x) : P x := by
  obtain ⟨before, after, -, hx, -⟩ := h
  exact hx

/-- An element with the property is the only one. -/
theorem IsOnly.eq (h : IsOnly P xs x) (hy : y ∈ xs) (hp : P y) : y = x := by
  obtain ⟨before, after, rfl, -, hother⟩ := h
  rw [List.mem_append, List.mem_cons] at hy
  rcases hy with hy | rfl | hy
  · exact absurd hp (hother y (by simp [hy]))
  · rfl
  · exact absurd hp (hother y (by simp [hy]))

theorem IsOnly.congr {Q : α → Prop} (hPQ : ∀ y ∈ xs, P y ↔ Q y) (h : IsOnly P xs x) :
    IsOnly Q xs x := by
  obtain ⟨before, after, rfl, hx, hother⟩ := h
  refine ⟨before, after, rfl, (hPQ x (by simp)).mp hx, fun y hy hq ↦ hother y hy ?_⟩
  refine (hPQ y ?_).mpr hq
  rw [List.mem_append] at hy
  simp only [List.mem_append, List.mem_cons]
  exact hy.imp id .inr

/-- The only element stays the only one in another order. -/
theorem IsOnly.perm {ys : List α} (h : IsOnly P xs x) (hperm : xs.Perm ys) : IsOnly P ys x := by
  obtain ⟨before, after, rfl, hx, hother⟩ := h
  have hmem : x ∈ ys := hperm.mem_iff.mp (by simp)
  obtain ⟨before', after', rfl⟩ := List.append_of_mem hmem
  refine ⟨before', after', rfl, hx, ?_⟩
  intro y hy
  have hrest : (before ++ after).Perm (before' ++ after') := by
    have hcons := (List.perm_middle.symm.trans hperm).trans List.perm_middle
    exact hcons.cons_inv
  exact hother y (hrest.mem_iff.mpr hy)

/-- With distinct keys, an element is the only one of its key. -/
theorem isOnly_of_nodup {key : α → Option κ} (hnodup : (xs.filterMap key).Nodup) (hx : x ∈ xs)
    {k : κ} (hk : key x = some k) : IsOnly (fun y ↦ key y = some k) xs x := by
  obtain ⟨before, after, rfl⟩ := List.append_of_mem hx
  refine ⟨before, after, rfl, hk, fun y hy hyk ↦ ?_⟩
  rw [List.filterMap_append, List.filterMap_cons_some hk, List.nodup_middle,
    List.nodup_cons, ← List.filterMap_append] at hnodup
  exact hnodup.1 (List.mem_filterMap.mpr ⟨y, hy, hyk⟩)

/-- A first-match search finds the only element with the property. -/
theorem find?_eq_some_of_isOnly {p : α → Bool} (h : IsOnly (fun y ↦ p y = true) xs x) :
    xs.find? p = some x := by
  obtain ⟨before, after, rfl, hx, hother⟩ := h
  rw [List.find?_append, List.find?_eq_none.mpr fun y hy ↦ hother y (by simp [hy]),
    Option.none_or, List.find?_cons_of_pos hx]

end TimeProofs.Base
