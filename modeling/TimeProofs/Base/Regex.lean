import Mathlib.Data.List.Basic

/-!
# Regular expressions

Regular expressions over character classes, the strings they match, and a matcher by
derivatives. The matcher is sound and complete for the matching relation.
-/

namespace TimeProofs.Base

/-- A regular expression over `α`; a character class is a predicate. -/
inductive Regex (α : Type) where
  | empty
  | epsilon
  | chars (p : α → Bool)
  | seq (r s : Regex α)
  | alt (r s : Regex α)
  | star (r : Regex α)

namespace Regex

variable {α : Type}

/-- The strings a regular expression matches as a whole. -/
inductive Matches : Regex α → List α → Prop
  | epsilon : Matches .epsilon []
  | chars {p : α → Bool} {a : α} : p a = true → Matches (.chars p) [a]
  | seq {r s : Regex α} {u v : List α} : Matches r u → Matches s v →
      Matches (.seq r s) (u ++ v)
  | altLeft {r s : Regex α} {u : List α} : Matches r u → Matches (.alt r s) u
  | altRight {r s : Regex α} {u : List α} : Matches s u → Matches (.alt r s) u
  | starNil {r : Regex α} : Matches (.star r) []
  | starCons {r : Regex α} {u v : List α} : Matches r u → Matches (.star r) v →
      Matches (.star r) (u ++ v)

/-- One or more repetitions. -/
def plus (r : Regex α) : Regex α := .seq r (.star r)

/-- Zero or one occurrence. -/
def opt (r : Regex α) : Regex α := .alt r .epsilon

/-- At least `n` repetitions. -/
def atLeast : Nat → Regex α → Regex α
  | 0, r => .star r
  | n + 1, r => .seq r (atLeast n r)

/-- One given string. -/
def word [DecidableEq α] : List α → Regex α
  | [] => .epsilon
  | a :: rest => .seq (.chars (· = a)) (word rest)

/-- Whether the empty string matches. -/
def nullable : Regex α → Bool
  | .empty => false
  | .epsilon => true
  | .chars _ => false
  | .seq r s => r.nullable && s.nullable
  | .alt r s => r.nullable || s.nullable
  | .star _ => true

/-- Concatenation that drops branches that cannot match. -/
def seqOf : Regex α → Regex α → Regex α
  | .empty, _ => .empty
  | .epsilon, s => s
  | r, s => .seq r s

/-- Alternation that drops branches that cannot match. -/
def altOf : Regex α → Regex α → Regex α
  | .empty, s => s
  | r, .empty => r
  | r, s => .alt r s

/-- The strings that may follow `a`. -/
def deriv (a : α) : Regex α → Regex α
  | .empty => .empty
  | .epsilon => .empty
  | .chars p => if p a then .epsilon else .empty
  | .seq r s =>
    if r.nullable then altOf (seqOf (r.deriv a) s) (s.deriv a) else seqOf (r.deriv a) s
  | .alt r s => altOf (r.deriv a) (s.deriv a)
  | .star r => seqOf (r.deriv a) (.star r)

/-- Whether the whole string matches. -/
def test (r : Regex α) : List α → Bool
  | [] => r.nullable
  | a :: rest => (r.deriv a).test rest

theorem not_matches_empty (u : List α) : ¬Matches .empty u := nofun

theorem matches_epsilon_iff {u : List α} : Matches .epsilon u ↔ u = [] :=
  ⟨fun h ↦ by cases h; rfl, fun h ↦ h ▸ .epsilon⟩

theorem matches_chars_iff {p : α → Bool} {u : List α} :
    Matches (.chars p) u ↔ ∃ a, p a = true ∧ u = [a] :=
  ⟨fun h ↦ by cases h with | chars h => exact ⟨_, h, rfl⟩, fun ⟨_, h, hu⟩ ↦ hu ▸ .chars h⟩

theorem matches_seq_iff {r s : Regex α} {w : List α} :
    Matches (.seq r s) w ↔ ∃ u v, Matches r u ∧ Matches s v ∧ w = u ++ v :=
  ⟨fun h ↦ by cases h with | seq hr hs => exact ⟨_, _, hr, hs, rfl⟩,
    fun ⟨_, _, hr, hs, hw⟩ ↦ hw ▸ .seq hr hs⟩

theorem matches_alt_iff {r s : Regex α} {u : List α} :
    Matches (.alt r s) u ↔ Matches r u ∨ Matches s u := by
  constructor
  · rintro (_ | _ | _ | h | h)
    · exact .inl h
    · exact .inr h
  · rintro (h | h)
    · exact .altLeft h
    · exact .altRight h

theorem matches_word_iff [DecidableEq α] {w u : List α} : Matches (word w) u ↔ u = w := by
  induction w generalizing u with
  | nil => exact matches_epsilon_iff
  | cons a w ih =>
    rw [word, matches_seq_iff]
    constructor
    · rintro ⟨x, v, hx, hv, rfl⟩
      obtain ⟨b, hb, rfl⟩ := matches_chars_iff.mp hx
      rw [decide_eq_true_eq] at hb
      rw [ih.mp hv, hb]
      rfl
    · rintro rfl
      exact ⟨[a], w, .chars (by simp), ih.mpr rfl, rfl⟩

/-- A repetition of a character class matches the strings over the class. -/
theorem matches_star_chars_iff {p : α → Bool} {u : List α} :
    Matches (.star (.chars p)) u ↔ ∀ a ∈ u, p a = true := by
  constructor
  · intro h
    generalize hr : Regex.star (.chars p) = r at h
    induction h with
    | starNil => simp
    | starCons hu _ _ ih =>
      obtain rfl := Regex.star.inj hr
      obtain ⟨a, ha, rfl⟩ := matches_chars_iff.mp hu
      rintro b hb
      rcases List.mem_cons.mp hb with rfl | hb
      · exact ha
      · exact ih rfl b hb
    | _ => cases hr
  · intro h
    induction u with
    | nil => exact .starNil
    | cons a u ih => exact .starCons (.chars (h a (by simp))) (ih fun b hb ↦ h b (by simp [hb]))

/-- One or more letters of a character class. -/
theorem matches_plus_chars_iff {p : α → Bool} {u : List α} :
    Matches (plus (.chars p)) u ↔ u ≠ [] ∧ ∀ a ∈ u, p a = true := by
  rw [plus, matches_seq_iff]
  constructor
  · rintro ⟨x, v, hx, hv, hu⟩
    obtain ⟨a, ha, rfl⟩ := matches_chars_iff.mp hx
    subst hu
    refine ⟨nofun, ?_⟩
    intro b hb
    rcases List.mem_cons.mp hb with rfl | hb
    · exact ha
    · exact matches_star_chars_iff.mp hv b hb
  · rintro ⟨hne, hall⟩
    cases u with
    | nil => exact absurd rfl hne
    | cons a rest =>
      refine ⟨[a], rest, .chars (hall a List.mem_cons_self), ?_, rfl⟩
      exact matches_star_chars_iff.mpr fun b hb ↦ hall b (List.mem_cons_of_mem a hb)

/-! ### The matcher -/

theorem nullable_iff (r : Regex α) : r.nullable = true ↔ Matches r [] := by
  induction r with
  | empty => simp [nullable, not_matches_empty]
  | epsilon => simp [nullable, matches_epsilon_iff]
  | chars p => simp [nullable, matches_chars_iff]
  | seq r s ihr ihs =>
    rw [nullable, Bool.and_eq_true, ihr, ihs, matches_seq_iff]
    constructor
    · exact fun ⟨hr, hs⟩ ↦ ⟨[], [], hr, hs, rfl⟩
    · rintro ⟨u, v, hr, hs, huv⟩
      obtain ⟨rfl, rfl⟩ := List.append_eq_nil_iff.mp huv.symm
      exact ⟨hr, hs⟩
  | alt r s ihr ihs => rw [nullable, Bool.or_eq_true, ihr, ihs, matches_alt_iff]
  | star r => exact ⟨fun _ ↦ .starNil, fun _ ↦ rfl⟩

theorem matches_seqOf_iff {r s : Regex α} {u : List α} :
    Matches (seqOf r s) u ↔ Matches (.seq r s) u := by
  unfold seqOf
  split
  · simp [matches_seq_iff, not_matches_empty]
  · simp [matches_seq_iff, matches_epsilon_iff]
  · rfl

theorem matches_altOf_iff {r s : Regex α} {u : List α} :
    Matches (altOf r s) u ↔ Matches (.alt r s) u := by
  unfold altOf
  split <;> simp [matches_alt_iff, not_matches_empty]

private theorem matches_star_cons_iff {r : Regex α} {a : α} {w : List α} :
    Matches (.star r) (a :: w) ↔ ∃ u v, Matches r (a :: u) ∧ Matches (.star r) v ∧ w = u ++ v := by
  constructor
  · intro h
    generalize hr : Regex.star r = t at h
    generalize hw : a :: w = x at h
    induction h generalizing w with
    | starNil => cases hw
    | @starCons r' u v hu hv _ ih =>
      obtain rfl := Regex.star.inj hr
      cases u with
      | nil => exact ih hr hw
      | cons b u =>
        obtain ⟨rfl, rfl⟩ := List.cons.inj hw
        exact ⟨u, v, hu, hv, rfl⟩
    | _ => cases hr
  · rintro ⟨u, v, hu, hv, rfl⟩
    exact .starCons hu hv

/-- The derivative matches what may follow the letter. -/
theorem matches_deriv_iff (r : Regex α) (a : α) (u : List α) :
    Matches (r.deriv a) u ↔ Matches r (a :: u) := by
  induction r generalizing u with
  | empty => simp [deriv, not_matches_empty]
  | epsilon => simp [deriv, not_matches_empty, matches_epsilon_iff]
  | chars p =>
    cases hp : p a <;> simp [deriv, hp, not_matches_empty, matches_epsilon_iff, matches_chars_iff]
  | seq r s ihr ihs =>
    have hseq : Matches (.seq (r.deriv a) s) u ↔
        ∃ x v, Matches r (a :: x) ∧ Matches s v ∧ u = x ++ v := by
      simp only [matches_seq_iff, ihr]
    have hcons : Matches (.seq r s) (a :: u) ↔
        (∃ x v, Matches r (a :: x) ∧ Matches s v ∧ u = x ++ v) ∨
          (Matches r [] ∧ Matches s (a :: u)) := by
      rw [matches_seq_iff]
      constructor
      · rintro ⟨x, v, hr, hs, hu⟩
        cases x with
        | nil => exact .inr ⟨hr, by rwa [hu, List.nil_append]⟩
        | cons b x =>
          obtain ⟨rfl, rfl⟩ := List.cons.inj hu
          exact .inl ⟨x, v, hr, hs, rfl⟩
      · rintro (⟨x, v, hr, hs, rfl⟩ | ⟨hr, hs⟩)
        · exact ⟨a :: x, v, hr, hs, rfl⟩
        · exact ⟨[], a :: u, hr, hs, rfl⟩
    rw [deriv, hcons, ← nullable_iff]
    split
    · next hn => simp [matches_altOf_iff, matches_alt_iff, matches_seqOf_iff, hseq, hn, ihs]
    · next hn => simp [matches_seqOf_iff, hseq, hn]
  | alt r s ihr ihs => rw [deriv, matches_altOf_iff, matches_alt_iff, matches_alt_iff, ihr, ihs]
  | star r ih =>
    rw [deriv, matches_seqOf_iff, matches_seq_iff, matches_star_cons_iff]
    simp only [ih]

/-- The matcher decides the matching relation. -/
theorem test_iff (r : Regex α) (u : List α) : r.test u = true ↔ Matches r u := by
  induction u generalizing r with
  | nil => exact nullable_iff r
  | cons a u ih => rw [test, ih, matches_deriv_iff]

end Regex
end TimeProofs.Base
