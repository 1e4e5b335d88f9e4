import TimeProofs.Base.Utf16
import Mathlib.Data.List.Perm.Basic
import Mathlib.Data.List.Perm.Subperm
import Mathlib.Data.List.Sort
import Mathlib.Data.List.Nodup

/-!
# JSON data

JSON data as ECMAScript holds it: doubles for numbers, UTF-16 strings, and objects as the list
of their own members. An object never holds two members of one name; the predicate `UniqueKeys`
states it, because a nested inductive type cannot. Equality up to member order is `Same`, and
`normal` picks one representative of each class.
-/

namespace TimeProofs

open TimeProofs.Base

/-- JSON data; `members` lists an object's own enumerable properties. -/
inductive Json where
  | null
  | bool (b : Bool)
  | num (x : Float)
  | str (s : JsString)
  | arr (items : List Json)
  | obj (members : List (JsString × Json))

/-- The members of an object. -/
abbrev Members := List (JsString × Json)

namespace Json

/-- Induction over JSON data with one hypothesis for each contained value. -/
@[elab_as_elim]
theorem induct {motive : Json → Prop} (null : motive .null) (bool : ∀ b, motive (.bool b))
    (num : ∀ x, motive (.num x)) (str : ∀ s, motive (.str s))
    (arr : ∀ items, (∀ v ∈ items, motive v) → motive (.arr items))
    (obj : ∀ members : Members, (∀ m ∈ members, motive m.2) → motive (.obj members))
    (v : Json) : motive v :=
  @Json.rec motive (fun items ↦ ∀ v ∈ items, motive v)
    (fun members ↦ ∀ m ∈ members, motive m.2) (fun m ↦ motive m.2)
    null bool num str arr obj
    (fun _ hv ↦ absurd hv (List.not_mem_nil))
    (fun _ _ hh ht v hv ↦ (List.mem_cons.mp hv).elim (fun h ↦ h ▸ hh) (ht v))
    (fun _ hm ↦ absurd hm (List.not_mem_nil))
    (fun _ _ hh ht m hm ↦ (List.mem_cons.mp hm).elim (fun h ↦ h ▸ hh) (ht m))
    (fun _ _ h ↦ h) v

mutual

/-- Every string satisfies `S`, every number `N` and every object's list of names `K`. -/
def All (S : JsString → Prop) (N : Float → Prop) (K : List JsString → Prop) : Json → Prop
  | .null => True
  | .bool _ => True
  | .num x => N x
  | .str s => S s
  | .arr items => AllItems S N K items
  | .obj members => K (members.map Prod.fst) ∧ AllMembers S N K members

/-- `All` of every array element. -/
def AllItems (S : JsString → Prop) (N : Float → Prop) (K : List JsString → Prop) :
    List Json → Prop
  | [] => True
  | v :: rest => All S N K v ∧ AllItems S N K rest

/-- `All` of every member's value. -/
def AllMembers (S : JsString → Prop) (N : Float → Prop) (K : List JsString → Prop) :
    Members → Prop
  | [] => True
  | (_, v) :: rest => All S N K v ∧ AllMembers S N K rest

end

section All

variable {S : JsString → Prop} {N : Float → Prop} {K : List JsString → Prop}

theorem allItems_iff (items : List Json) :
    AllItems S N K items ↔ ∀ v ∈ items, All S N K v := by
  induction items with
  | nil => simp [AllItems]
  | cons v rest ih => simp [AllItems, ih]

theorem allMembers_iff (members : Members) :
    AllMembers S N K members ↔ ∀ m ∈ members, All S N K m.2 := by
  induction members with
  | nil => simp [AllMembers]
  | cons m rest ih =>
    obtain ⟨k, v⟩ := m
    simp [AllMembers, ih]

/-- An array has the property exactly when its elements have it. -/
theorem all_arr (items : List Json) : All S N K (.arr items) ↔ ∀ v ∈ items, All S N K v := by
  rw [All, allItems_iff]

/-- An object has the property exactly when its names and its members' values have it. -/
theorem all_obj (members : Members) :
    All S N K (.obj members) ↔ K (members.map Prod.fst) ∧ ∀ m ∈ members, All S N K m.2 := by
  rw [All, allMembers_iff]

/-- `All` is monotone in its three predicates. -/
theorem All.imp {S' : JsString → Prop} {N' : Float → Prop} {K' : List JsString → Prop}
    (hS : ∀ s, S s → S' s) (hN : ∀ x, N x → N' x) (hK : ∀ ks, K ks → K' ks) {v : Json}
    (h : All S N K v) : All S' N' K' v := by
  induction v using Json.induct with
  | null => trivial
  | bool b => trivial
  | num x => exact hN x h
  | str s => exact hS s h
  | arr items ih =>
    rw [all_arr] at h ⊢
    exact fun v hv ↦ ih v hv (h v hv)
  | obj members ih =>
    rw [all_obj] at h ⊢
    exact ⟨hK _ h.1, fun m hm ↦ ih m hm (h.2 m hm)⟩

/-- What a value without numbers satisfies does not depend on what is asked of numbers. -/
theorem All.of_noNumbers {v : Json} (h : All S (fun _ ↦ False) K v) : All S N K v :=
  h.imp (fun _ h ↦ h) (fun _ h ↦ h.elim) fun _ h ↦ h

section

variable [DecidablePred S] [DecidablePred N] [DecidablePred K]

mutual

/-- `All` of decidable predicates is decided by visiting every part. -/
def decideAll : (v : Json) → Decidable (All S N K v)
  | .null => isTrue trivial
  | .bool _ => isTrue trivial
  | .num x => inferInstanceAs (Decidable (N x))
  | .str s => inferInstanceAs (Decidable (S s))
  | .arr items => decideAllItems items
  | .obj members => @instDecidableAnd _ _ _ (decideAllMembers members)

/-- `AllItems` of decidable predicates is decidable. -/
def decideAllItems : (items : List Json) → Decidable (AllItems S N K items)
  | [] => isTrue trivial
  | v :: rest => @instDecidableAnd _ _ (decideAll v) (decideAllItems rest)

/-- `AllMembers` of decidable predicates is decidable. -/
def decideAllMembers : (members : Members) → Decidable (AllMembers S N K members)
  | [] => isTrue trivial
  | (_, v) :: rest => @instDecidableAnd _ _ (decideAll v) (decideAllMembers rest)

end

instance (v : Json) : Decidable (All S N K v) := decideAll v

end

end All

/-- Every string and every member name is well-formed UTF-16. -/
def WellFormedText : Json → Prop :=
  All (fun s ↦ wellFormed s = true) (fun _ ↦ True) (fun ks ↦ ∀ k ∈ ks, wellFormed k = true)

/-- No number is infinite or NaN. -/
def FiniteNumbers : Json → Prop :=
  All (fun _ ↦ True) (fun x ↦ x.isFinite = true) (fun _ ↦ True)

/-- No object names a member twice. -/
def UniqueKeys : Json → Prop := All (fun _ ↦ True) (fun _ ↦ True) List.Nodup

/-- The data that the strict profile admits. -/
structure Strict (v : Json) : Prop where
  text : v.WellFormedText
  finite : v.FiniteNumbers
  unique : v.UniqueKeys

/-- The three conditions of `Strict` in one recursion. -/
theorem strict_iff_all (v : Json) :
    v.Strict ↔ All (fun s ↦ wellFormed s = true) (fun x ↦ x.isFinite = true)
      (fun ks ↦ ks.Nodup ∧ ∀ k ∈ ks, wellFormed k = true) v := by
  constructor
  · rintro ⟨ht, hf, hu⟩
    induction v using Json.induct with
    | null => trivial
    | bool b => trivial
    | num x => exact hf
    | str s => exact ht
    | arr items ih =>
      rw [WellFormedText, all_arr] at ht
      rw [FiniteNumbers, all_arr] at hf
      rw [UniqueKeys, all_arr] at hu
      rw [all_arr]
      exact fun v hv ↦ ih v hv (ht v hv) (hf v hv) (hu v hv)
    | obj members ih =>
      rw [WellFormedText, all_obj] at ht
      rw [FiniteNumbers, all_obj] at hf
      rw [UniqueKeys, all_obj] at hu
      rw [all_obj]
      exact ⟨⟨hu.1, ht.1⟩, fun m hm ↦ ih m hm (ht.2 m hm) (hf.2 m hm) (hu.2 m hm)⟩
  · intro h
    exact ⟨h.imp (fun _ hs ↦ hs) (fun _ _ ↦ trivial) (fun _ hk ↦ hk.2),
      h.imp (fun _ _ ↦ trivial) (fun _ hx ↦ hx) (fun _ _ ↦ trivial),
      h.imp (fun _ _ ↦ trivial) (fun _ _ ↦ trivial) (fun _ hk ↦ hk.1)⟩

/-- Strict array elements. -/
theorem strict_arr (items : List Json) : (Json.arr items).Strict ↔ ∀ v ∈ items, v.Strict := by
  simp only [strict_iff_all, all_arr]

/-- Strict object members: distinct well-formed names and strict values. -/
theorem strict_obj (members : Members) :
    (Json.obj members).Strict ↔
      ((members.map Prod.fst).Nodup ∧ ∀ k ∈ members.map Prod.fst, wellFormed k = true) ∧
        ∀ m ∈ members, m.2.Strict := by
  simp only [strict_iff_all, all_obj]

/-! ### Equality up to member order -/

/-- The two zeros. -/
def isZero (x : Float) : Bool := x = Float.ofBits 0 || x = Float.ofBits 0x8000000000000000

/-- `x === y` on numbers other than NaN: the same number, or two zeros. -/
def numberEqual (x y : Float) : Prop := x = y ∨ (isZero x = true ∧ isZero y = true)

/-- `-0` becomes `0`. -/
def dropZeroSign (x : Float) : Float := if isZero x then Float.ofBits 0 else x

theorem isFinite_dropZeroSign {x : Float} (h : x.isFinite = true) :
    (dropZeroSign x).isFinite = true := by
  unfold dropZeroSign
  split
  · rfl
  · exact h

theorem dropZeroSign_dropZeroSign (x : Float) :
    dropZeroSign (dropZeroSign x) = dropZeroSign x := by
  unfold dropZeroSign
  split
  · split <;> rfl
  · rfl

mutual

/-- Equal data up to the order of object members. -/
def Same : Json → Json → Prop
  | .null, .null => True
  | .bool b, .bool c => b = c
  | .num x, .num y => numberEqual x y
  | .str s, .str t => s = t
  | .arr xs, .arr ys => SameItems xs ys
  | .obj ms, .obj ns => ms.length = ns.length ∧ SameMembers ms ns
  | _, _ => False

/-- Elementwise equality of arrays. -/
def SameItems : List Json → List Json → Prop
  | [], [] => True
  | x :: xs, y :: ys => Same x y ∧ SameItems xs ys
  | _, _ => False

/-- Every member on the left has an equal member of its name on the right. -/
def SameMembers : Members → Members → Prop
  | [], _ => True
  | (k, v) :: rest, ns => (∃ w, (k, w) ∈ ns ∧ Same v w) ∧ SameMembers rest ns

end

theorem sameMembers_iff (ms ns : Members) :
    SameMembers ms ns ↔ ∀ m ∈ ms, ∃ w, (m.1, w) ∈ ns ∧ Same m.2 w := by
  induction ms with
  | nil => simp [SameMembers]
  | cons m rest ih =>
    obtain ⟨k, v⟩ := m
    simp [SameMembers, ih]

/-- Member lists in ascending order of names. -/
def sortMembers {β : Type} (ms : List (JsString × β)) : List (JsString × β) :=
  ms.insertionSort fun m n ↦ compareUtf16 m.1 n.1 ≤ 0

mutual

/-- The representative with every object's members in ascending order and no `-0`. -/
def normal : Json → Json
  | .null => .null
  | .bool b => .bool b
  | .num x => .num (dropZeroSign x)
  | .str s => .str s
  | .arr items => .arr (normalItems items)
  | .obj members => .obj (sortMembers (normalMembers members))

/-- Representatives of array elements. -/
def normalItems : List Json → List Json
  | [] => []
  | v :: rest => normal v :: normalItems rest

/-- Representatives of members, in the given order. -/
def normalMembers : Members → Members
  | [] => []
  | (k, v) :: rest => (k, normal v) :: normalMembers rest

end

theorem normalItems_eq_map (items : List Json) : normalItems items = items.map normal := by
  induction items with
  | nil => rfl
  | cons v rest ih => rw [normalItems, ih, List.map_cons]

theorem normalMembers_eq_map (ms : Members) :
    normalMembers ms = ms.map fun m ↦ (m.1, normal m.2) := by
  induction ms with
  | nil => rfl
  | cons m rest ih => rw [normalMembers, ih, List.map_cons]

theorem sortMembers_perm {β : Type} (ms : List (JsString × β)) : (sortMembers ms).Perm ms :=
  List.perm_insertionSort _ ms

/-- Sorting puts names in ascending order. -/
theorem sortMembers_pairwise {β : Type} (ms : List (JsString × β)) :
    (sortMembers ms).Pairwise fun m n ↦ compareUtf16 m.1 n.1 ≤ 0 := by
  have : Std.Total fun m n : JsString × β ↦ compareUtf16 m.1 n.1 ≤ 0 :=
    ⟨fun m n ↦ compareUtf16_total m.1 n.1⟩
  have : IsTrans (JsString × β) fun m n ↦ compareUtf16 m.1 n.1 ≤ 0 :=
    ⟨fun _ _ _ ↦ compareUtf16_trans⟩
  exact List.pairwise_insertionSort _ ms

/-- Two orders of the same distinctly named members sort to one list. -/
theorem sortMembers_eq_of_perm {β : Type} {ms ns : List (JsString × β)}
    (hu : (ms.map Prod.fst).Nodup) (h : ms.Perm ns) : sortMembers ms = sortMembers ns := by
  have hp : (sortMembers ms).Perm (sortMembers ns) :=
    ((sortMembers_perm ms).trans h).trans (sortMembers_perm ns).symm
  refine hp.eq_of_pairwise (fun a b ha hb hab hba ↦ ?_)
    (sortMembers_pairwise ms) (sortMembers_pairwise ns)
  have hk : a.1 = b.1 := eq_of_compareUtf16 (by
    have hs := compareUtf16_swap a.1 b.1
    omega)
  have ha' : a ∈ ms := (sortMembers_perm ms).mem_iff.mp ha
  have hb' : b ∈ ms := h.mem_iff.mpr ((sortMembers_perm ns).mem_iff.mp hb)
  exact List.inj_on_of_nodup_map hu ha' hb' hk

theorem numberEqual_iff (x y : Float) : numberEqual x y ↔ dropZeroSign x = dropZeroSign y := by
  have hz : isZero (Float.ofBits 0) = true := by simp [isZero]
  unfold numberEqual dropZeroSign
  constructor
  · rintro (rfl | ⟨hx, hy⟩)
    · rfl
    · rw [if_pos hx, if_pos hy]
  · intro h
    by_cases hx : isZero x = true <;> by_cases hy : isZero y = true
    · exact .inr ⟨hx, hy⟩
    · rw [if_pos hx, if_neg hy] at h
      exact absurd (h ▸ hz) hy
    · rw [if_neg hx, if_pos hy] at h
      exact absurd (h ▸ hz) hx
    · rw [if_neg hx, if_neg hy] at h
      exact .inl h

/-- Members of a value with distinct names are found again by name. -/
theorem eq_of_mem_of_unique {β : Type} {ms : List (JsString × β)} {k : JsString} {v w : β}
    (hu : (ms.map Prod.fst).Nodup) (hv : (k, v) ∈ ms) (hw : (k, w) ∈ ms) : v = w :=
  congrArg Prod.snd (List.inj_on_of_nodup_map hu hv hw rfl)

private theorem normal_obj_eq_iff {ms ns : Members} (hm : (ms.map Prod.fst).Nodup) :
    (Json.obj ms).normal = (Json.obj ns).normal ↔
      ms.length = ns.length ∧ ∀ m ∈ ms, ∃ w, (m.1, w) ∈ ns ∧ m.2.normal = w.normal := by
  have hmap (l : Members) : (normalMembers l).map Prod.fst = l.map Prod.fst := by
    rw [normalMembers_eq_map, List.map_map]
    rfl
  simp only [normal, Json.obj.injEq]
  constructor
  · intro h
    have hp : (normalMembers ms).Perm (normalMembers ns) :=
      (sortMembers_perm _).symm.trans (h ▸ sortMembers_perm _)
    refine ⟨by simpa [normalMembers_eq_map] using hp.length_eq, fun m hmem ↦ ?_⟩
    have hin : (m.1, m.2.normal) ∈ normalMembers ns := by
      rw [← hp.mem_iff, normalMembers_eq_map]
      exact List.mem_map.mpr ⟨m, hmem, rfl⟩
    rw [normalMembers_eq_map] at hin
    obtain ⟨⟨k, w⟩, hw, he⟩ := List.mem_map.mp hin
    obtain ⟨rfl, he⟩ := Prod.mk.inj he
    exact ⟨w, hw, he.symm⟩
  · rintro ⟨hl, hsub⟩
    apply sortMembers_eq_of_perm (by rwa [hmap])
    apply List.Subperm.perm_of_length_le
    · apply List.subperm_of_subset
      · exact List.Nodup.of_map Prod.fst (by rwa [hmap])
      · intro p hp
        rw [normalMembers_eq_map] at hp ⊢
        obtain ⟨m, hmem, rfl⟩ := List.mem_map.mp hp
        obtain ⟨w, hw, he⟩ := hsub m hmem
        exact List.mem_map.mpr ⟨(m.1, w), hw, by rw [he]⟩
    · simp [normalMembers_eq_map, hl]

private theorem sameItems_iff_normal {xs : List Json}
    (h : ∀ v ∈ xs, ∀ w, Same v w ↔ v.normal = w.normal) (ys : List Json) :
    SameItems xs ys ↔ normalItems xs = normalItems ys := by
  induction xs generalizing ys with
  | nil => cases ys <;> simp [SameItems, normalItems]
  | cons x xs ih =>
    cases ys with
    | nil => simp [SameItems, normalItems]
    | cons y ys =>
      rw [SameItems, normalItems, normalItems, List.cons.injEq, h x (by simp) y,
        ih (fun v hv ↦ h v (by simp [hv])) ys]

/-- Equality up to member order is equality of representatives. -/
theorem same_iff_normal {v : Json} (hv : v.UniqueKeys) (w : Json) :
    Same v w ↔ v.normal = w.normal := by
  induction v using Json.induct generalizing w with
  | null => cases w <;> simp [Same, normal]
  | bool b => cases w <;> simp [Same, normal]
  | num x => cases w <;> simp [Same, normal, numberEqual_iff]
  | str s => cases w <;> simp [Same, normal]
  | arr xs ih =>
    rw [UniqueKeys, all_arr] at hv
    cases w with
    | arr ys =>
      rw [Same, normal, normal, Json.arr.injEq]
      exact sameItems_iff_normal (fun v hm ↦ ih v hm (hv v hm)) ys
    | _ => simp [Same, normal]
  | obj ms ih =>
    rw [UniqueKeys, all_obj] at hv
    cases w with
    | obj ns =>
      rw [Same, sameMembers_iff, normal_obj_eq_iff hv.1]
      refine and_congr_right fun _ ↦ forall₂_congr fun m hm ↦ exists_congr fun w ↦ ?_
      exact and_congr_right fun _ ↦ ih m hm (hv.2 m hm) w
    | _ => simp [Same, normal]

end Json
end TimeProofs
