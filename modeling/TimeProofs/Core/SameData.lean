import TimeProofs.Core.Integrity
import TimeProofs.Json.Stringify

/-!
# Verification reads data

The verifier sees no more of a bundle than the data: neither the order in which an object lists its
members nor the sign of a zero makes a difference to any check. Every function of the verifier
returns for the representative of its input what it returns for the input.
-/

namespace TimeProofs.Core

open TimeProofs.Base TimeProofs.Json

/-- The members of an object's representative. -/
def normalOf (ms : Members) : Members := (sortMembers ms).map fun m ↦ (m.1, m.2.normal)

theorem normal_arr (items : List Json) :
    (Json.arr items).normal = .arr (items.map Json.normal) := by
  rw [Json.normal, Json.normalItems_eq_map]

theorem normal_obj_eq (ms : Members) : (Json.obj ms).normal = .obj (normalOf ms) := normal_obj ms

theorem member_insert (m : JsString × Json) (ms : Members) (key : JsString) :
    member (ms.orderedInsert (fun m n ↦ compareUtf16 m.1 n.1 ≤ 0) m) key =
      member (m :: ms) key := by
  induction ms with
  | nil => rfl
  | cons n rest ih =>
    rw [List.orderedInsert_cons]
    split
    · rfl
    · next hle =>
      have hne : m.1 ≠ n.1 := by
        intro heq
        apply hle
        rw [heq, compareUtf16_self]
      obtain ⟨k, v⟩ := m
      obtain ⟨l, w⟩ := n
      rw [member, ih, member, member, member]
      by_cases hl : l = key
      · subst hl
        rw [if_pos rfl, if_neg hne, if_pos rfl]
      · rw [if_neg hl, if_neg hl]

/-- Sorting is stable: of two members of one name the first stays the first. -/
theorem member_sortMembers (ms : Members) (key : JsString) :
    member (sortMembers ms) key = member ms key := by
  induction ms with
  | nil => rfl
  | cons m rest ih =>
    have hinsert := member_insert m (sortMembers rest) key
    obtain ⟨k, v⟩ := m
    rw [member, ← ih, ← member]
    exact hinsert

theorem member_map (f : Json → Json) (ms : Members) (key : JsString) :
    member (ms.map fun m ↦ (m.1, f m.2)) key = (member ms key).map f := by
  induction ms with
  | nil => rfl
  | cons m rest ih =>
    obtain ⟨k, v⟩ := m
    rw [List.map_cons, member, member, ih]
    split <;> rfl

@[simp] theorem member_normalOf (ms : Members) (key : JsString) :
    member (normalOf ms) key = (member ms key).map Json.normal := by
  rw [normalOf, member_map, member_sortMembers]

theorem filter_insert (p : JsString → Bool) (m : JsString × Json) {ms : Members}
    (hsorted : ms.Pairwise fun m n ↦ compareUtf16 m.1 n.1 ≤ 0) :
    (ms.orderedInsert (fun m n ↦ compareUtf16 m.1 n.1 ≤ 0) m).filter (fun m ↦ p m.1) =
      if p m.1 then (ms.filter fun m ↦ p m.1).orderedInsert (fun m n ↦ compareUtf16 m.1 n.1 ≤ 0) m
      else ms.filter fun m ↦ p m.1 := by
  induction ms with
  | nil => split <;> simp_all
  | cons n rest ih =>
    rw [List.pairwise_cons] at hsorted
    have hrest := ih hsorted.2
    by_cases hle : compareUtf16 m.1 n.1 ≤ 0
    · -- The new member is the least, so it stands first after the filter too.
      rw [List.orderedInsert_cons, if_pos hle, List.filter_cons]
      split
      · cases hf : (n :: rest).filter fun m ↦ p m.1 with
        | nil => rfl
        | cons x l =>
          have hx : x ∈ (n :: rest).filter fun m ↦ p m.1 := hf ▸ List.mem_cons_self
          have hmx : compareUtf16 m.1 x.1 ≤ 0 := by
            rcases List.mem_cons.mp (List.mem_filter.mp hx).1 with rfl | hx
            · exact hle
            · exact compareUtf16_trans hle (hsorted.1 x hx)
          rw [List.orderedInsert_cons, if_pos hmx]
      · rfl
    · rw [List.orderedInsert_cons, if_neg hle, List.filter_cons, List.filter_cons, hrest]
      split
      · split
        · rw [List.orderedInsert_cons, if_neg hle]
        · rfl
      · rfl

/-- Members are removed before sorting as after. -/
theorem sortMembers_filter (p : JsString → Bool) (ms : Members) :
    sortMembers (ms.filter fun m ↦ p m.1) = (sortMembers ms).filter fun m ↦ p m.1 := by
  induction ms with
  | nil => rfl
  | cons m rest ih =>
    have hinsert := filter_insert p m (Json.sortMembers_pairwise rest)
    rw [← ih] at hinsert
    rw [List.filter_cons]
    split
    · next hp =>
      rw [if_pos hp] at hinsert
      exact hinsert.symm
    · next hp =>
      rw [if_neg hp] at hinsert
      exact hinsert.symm

theorem map_fst_normalOf (ms : Members) : ((normalOf ms).map Prod.fst).Perm (ms.map Prod.fst) := by
  rw [normalOf, List.map_map]
  exact (Json.sortMembers_perm ms).map Prod.fst

theorem withoutMember_normalOf (ms : Members) (name : JsString) :
    withoutMember (normalOf ms) name = normalOf (withoutMember ms name) := by
  have hfilter := sortMembers_filter (fun key ↦ key ≠ name) ms
  rw [normalOf, withoutMember, withoutMember, normalOf, hfilter, List.filter_map]
  rfl

/-- What reads no more of a value than its kind, and of a string its text, reads the same of the
representative. -/
theorem shallow {α : Type} (f : Option Json → α)
    (hnum : ∀ x y, f (some (.num x)) = f (some (.num y)))
    (harr : ∀ xs ys, f (some (.arr xs)) = f (some (.arr ys)))
    (hobj : ∀ ms ns, f (some (.obj ms)) = f (some (.obj ns))) (v : Option Json) :
    f (v.map Json.normal) = f v := by
  cases v with
  | none => rfl
  | some v =>
    cases v with
    | num x => exact hnum _ x
    | arr items => exact harr _ items
    | obj ms => exact hobj _ ms
    | _ => rfl

section

variable (v w : Option Json)

@[simp] theorem isObject_normal : isObject (v.map Json.normal) = isObject v :=
  shallow isObject (fun _ _ ↦ rfl) (fun _ _ ↦ rfl) (fun _ _ ↦ rfl) v

@[simp] theorem isArray_normal : isArray (v.map Json.normal) = isArray v :=
  shallow isArray (fun _ _ ↦ rfl) (fun _ _ ↦ rfl) (fun _ _ ↦ rfl) v

@[simp] theorem isString_normal : isString (v.map Json.normal) = isString v :=
  shallow isString (fun _ _ ↦ rfl) (fun _ _ ↦ rfl) (fun _ _ ↦ rfl) v

@[simp] theorem isNonEmptyString_normal :
    isNonEmptyString (v.map Json.normal) = isNonEmptyString v :=
  shallow isNonEmptyString (fun _ _ ↦ rfl) (fun _ _ ↦ rfl) (fun _ _ ↦ rfl) v

@[simp] theorem isText_normal (text : JsString) : isText (v.map Json.normal) text = isText v text :=
  shallow (isText · text) (fun _ _ ↦ rfl) (fun _ _ ↦ rfl) (fun _ _ ↦ rfl) v

@[simp] theorem isOneOf_normal (texts : List JsString) :
    isOneOf texts (v.map Json.normal) = isOneOf texts v :=
  shallow (isOneOf texts) (fun _ _ ↦ rfl) (fun _ _ ↦ rfl) (fun _ _ ↦ rfl) v

@[simp] theorem validUtcTimestamp_normal :
    validUtcTimestamp (v.map Json.normal) = validUtcTimestamp v :=
  shallow validUtcTimestamp (fun _ _ ↦ rfl) (fun _ _ ↦ rfl) (fun _ _ ↦ rfl) v

@[simp] theorem isSha256Hex_normal : isSha256Hex (v.map Json.normal) = isSha256Hex v :=
  shallow isSha256Hex (fun _ _ ↦ rfl) (fun _ _ ↦ rfl) (fun _ _ ↦ rfl) v

@[simp] theorem isPemPublicKey_normal : isPemPublicKey (v.map Json.normal) = isPemPublicKey v :=
  shallow isPemPublicKey (fun _ _ ↦ rfl) (fun _ _ ↦ rfl) (fun _ _ ↦ rfl) v

@[simp] theorem isVerificationMethod_normal :
    isVerificationMethod (v.map Json.normal) = isVerificationMethod v :=
  shallow isVerificationMethod (fun _ _ ↦ rfl) (fun _ _ ↦ rfl) (fun _ _ ↦ rfl) v

@[simp] theorem base64urlDecodeCanonical_normal :
    base64urlDecodeCanonical (v.map Json.normal) = base64urlDecodeCanonical v :=
  shallow base64urlDecodeCanonical (fun _ _ ↦ rfl) (fun _ _ ↦ rfl) (fun _ _ ↦ rfl) v

@[simp] theorem canonicalBase64url_normal :
    canonicalBase64url (v.map Json.normal) = canonicalBase64url v := by
  rw [canonicalBase64url, canonicalBase64url, base64urlDecodeCanonical_normal]

@[simp] theorem stringOf_normal : stringOf (v.map Json.normal) = stringOf v :=
  shallow stringOf (fun _ _ ↦ rfl) (fun _ _ ↦ rfl) (fun _ _ ↦ rfl) v

@[simp] theorem refKind_normal : refKind (v.map Json.normal) = refKind v :=
  shallow refKind (fun _ _ ↦ rfl) (fun _ _ ↦ rfl) (fun _ _ ↦ rfl) v

@[simp] theorem startsWithReservedNamespace_normal :
    startsWithReservedNamespace (v.map Json.normal) = startsWithReservedNamespace v :=
  shallow startsWithReservedNamespace (fun _ _ ↦ rfl) (fun _ _ ↦ rfl) (fun _ _ ↦ rfl) v

@[simp] theorem compareTimestamps_normal :
    compareTimestamps (v.map Json.normal) (w.map Json.normal) = compareTimestamps v w :=
  (shallow (compareTimestamps · (w.map Json.normal)) (fun _ _ ↦ rfl) (fun _ _ ↦ rfl)
    (fun _ _ ↦ rfl) v).trans
    (shallow (compareTimestamps v) (fun _ _ ↦ rfl) (fun _ _ ↦ rfl) (fun _ _ ↦ rfl) w)

@[simp] theorem itemsOf_normal : itemsOf (v.map Json.normal) = (itemsOf v).map Json.normal := by
  cases v with
  | none => rfl
  | some v =>
    cases v with
    | arr items => exact Json.normalItems_eq_map items
    | _ => rfl

@[simp] theorem membersOf_normal : membersOf (v.map Json.normal) = normalOf (membersOf v) := by
  cases v with
  | none => rfl
  | some v =>
    cases v with
    | obj ms => exact congrArg (fun v ↦ membersOf (some v)) (normal_obj_eq ms)
    | _ => rfl

@[simp] theorem get_normal (key : JsString) :
    get (v.map Json.normal) key = (get v key).map Json.normal := by
  cases v with
  | none => rfl
  | some v =>
    cases v with
    | obj ms =>
      rw [Option.map_some, normal_obj_eq]
      exact member_normalOf ms key
    | _ => rfl

@[simp] theorem get_some_normal (v : Json) (key : JsString) :
    get (some v.normal) key = (get (some v) key).map Json.normal := get_normal (some v) key

@[simp] theorem exactKeys_normal (names : List JsString) :
    exactKeys (v.map Json.normal) names = exactKeys v names := by
  cases v with
  | none => rfl
  | some v =>
    cases v with
    | obj ms =>
      rw [Option.map_some, normal_obj_eq, exactKeys, exactKeys,
        sortNames_eq_iff.mpr (map_fst_normalOf ms)]
    | _ => rfl

@[simp] theorem allowedKeys_normal (required optional : List JsString) :
    allowedKeys (v.map Json.normal) required optional = allowedKeys v required optional := by
  cases v with
  | none => rfl
  | some v =>
    cases v with
    | obj ms =>
      rw [Option.map_some, normal_obj_eq, Bool.eq_iff_iff]
      simp only [allowedKeys, Bool.and_eq_true, List.all_eq_true, (map_fst_normalOf ms).mem_iff]
    | _ => rfl

theorem isZero_dropZeroSign (x : Float) : isZero (dropZeroSign x) = isZero x := by
  unfold dropZeroSign
  split
  · next h =>
    rw [h]
    decide
  · rfl

theorem isNaN_dropZeroSign (x : Float) : (dropZeroSign x).isNaN = x.isNaN := by
  unfold dropZeroSign
  split
  · next h =>
    simp only [isZero, Bool.or_eq_true, decide_eq_true_eq] at h
    rcases h with rfl | rfl <;> decide
  · rfl

theorem isFinite_dropZeroSign_eq (x : Float) : (dropZeroSign x).isFinite = x.isFinite := by
  unfold dropZeroSign
  split
  · next h =>
    simp only [isZero, Bool.or_eq_true, decide_eq_true_eq] at h
    rcases h with rfl | rfl <;> decide
  · rfl

/-- Numbers are compared without the signs of zeros. -/
theorem sameNumber_iff (x y : Float) :
    (decide (x = y) || (isZero x && isZero y)) = true ↔ dropZeroSign x = dropZeroSign y := by
  rw [← numberEqual_iff]
  simp [numberEqual]

theorem sameNumber_left (x y : Float) :
    (decide (dropZeroSign x = y) || (isZero (dropZeroSign x) && isZero y)) =
      (decide (x = y) || (isZero x && isZero y)) := by
  rw [Bool.eq_iff_iff, sameNumber_iff, sameNumber_iff, dropZeroSign_dropZeroSign]

theorem sameNumber_right (x y : Float) :
    (decide (x = dropZeroSign y) || (isZero x && isZero (dropZeroSign y))) =
      (decide (x = y) || (isZero x && isZero y)) := by
  rw [Bool.eq_iff_iff, sameNumber_iff, sameNumber_iff, dropZeroSign_dropZeroSign]

@[simp] theorem truthy_normal : truthy (v.map Json.normal) = truthy v := by
  cases v with
  | none => rfl
  | some v =>
    cases v with
    | num x => simp only [Option.map_some, Json.normal, truthy, isZero_dropZeroSign,
        isNaN_dropZeroSign]
    | _ => rfl

@[simp] theorem strictEqual_normal_left :
    strictEqual (v.map Json.normal) w = strictEqual v w := by
  rcases v with _ | (_ | _ | x | _ | _ | _) <;> rcases w with _ | (_ | _ | y | _ | _ | _)
  case some.num.some.num =>
    simp only [Option.map_some, Json.normal, strictEqual, sameNumber_left, isNaN_dropZeroSign]
  all_goals rfl

@[simp] theorem strictEqual_normal_right :
    strictEqual v (w.map Json.normal) = strictEqual v w := by
  rcases v with _ | (_ | _ | x | _ | _ | _) <;> rcases w with _ | (_ | _ | y | _ | _ | _)
  case some.num.some.num =>
    simp only [Option.map_some, Json.normal, strictEqual, sameNumber_right]
  all_goals rfl

@[simp] theorem sameValueZero_normal_left :
    sameValueZero (v.map Json.normal) w = sameValueZero v w := by
  rcases v with _ | (_ | _ | x | _ | _ | _) <;> rcases w with _ | (_ | _ | y | _ | _ | _)
  case some.num.some.num =>
    simp only [Option.map_some, Json.normal, sameValueZero, sameNumber_left]
  all_goals rfl

@[simp] theorem sameValueZero_normal_right :
    sameValueZero v (w.map Json.normal) = sameValueZero v w := by
  rcases v with _ | (_ | _ | x | _ | _ | _) <;> rcases w with _ | (_ | _ | y | _ | _ | _)
  case some.num.some.num =>
    simp only [Option.map_some, Json.normal, sameValueZero, sameNumber_right]
  all_goals rfl

@[simp] theorem iterate_normal :
    iterate (v.map Json.normal) = (iterate v).map (List.map Json.normal) := by
  cases v with
  | none => rfl
  | some v =>
    cases v with
    | arr items =>
      rw [Option.map_some, normal_arr]
      rfl
    | str s =>
      simp only [Option.map_some, Json.normal, iterate, Except.map, List.map_map]
      rfl
    | _ => rfl

end

/-- A host that sees no more of a value than the data: `String(-0)` is `0`, and neither the text of
an object nor the key that it describes depends on the order of its members. -/
structure Runtime.SeesData (rt : Runtime) : Prop where
  zero (x : Float) : rt.numberToString (dropZeroSign x) = rt.numberToString x
  object (ms : Members) : rt.coerceObject (normalOf ms) = rt.coerceObject ms
  publicKey (v : Option Json) : rt.createPublicKey (v.map Json.normal) = rt.createPublicKey v

theorem Runtime.SeesData.withoutPrototypes {rt : Runtime} (h : rt.SeesData) :
    rt.withoutPrototypes.SeesData := { h with object := fun _ ↦ rfl }

theorem elementTexts_normal {rt : Runtime} {items : List Json}
    (ih : ∀ v ∈ items, toText rt v.normal = toText rt v) :
    elementTexts rt (items.map Json.normal) = elementTexts rt items := by
  induction items with
  | nil => rfl
  | cons v rest hrest =>
    rw [List.forall_mem_cons] at ih
    have htail := hrest ih.2
    cases v with
    | null => exact congrArg (Except.ok [] :: ·) htail
    | _ => exact congrArg₂ List.cons ih.1 htail

section

variable {rt : Runtime} (h : rt.SeesData)
include h

theorem toText_normal (v : Json) : toText rt v.normal = toText rt v := by
  induction v using Json.induct with
  | num x => exact congrArg Except.ok (h.zero x)
  | arr items ih => rw [normal_arr, toText, toText, elementTexts_normal ih]
  | obj ms => rw [normal_obj_eq, toText, toText, h.object]
  | _ => rfl

theorem textOf_normal (v : Option Json) : textOf rt (v.map Json.normal) = textOf rt v := by
  cases v with
  | none => rfl
  | some v => exact toText_normal h v

theorem textOrEmpty_normal (v : Option Json) :
    textOrEmpty rt (v.map Json.normal) = textOrEmpty rt v := by
  cases v with
  | none => rfl
  | some v =>
    cases v with
    | null => rfl
    | _ => exact toText_normal h _

theorem canonicalize_normal (path : JsString) (v : Json) :
    canonicalize rt.numberToString path v.normal = canonicalize rt.numberToString path v := by
  induction v using Json.induct generalizing path with
  | num x => rw [Json.normal, canonicalize, canonicalize, isFinite_dropZeroSign_eq, h.zero]
  | arr items ih =>
    have hitems (index : Nat) (rest : List Json) (hrest : ∀ v ∈ rest, v ∈ items) :
        canonicalizeItems rt.numberToString path index (rest.map Json.normal) =
          canonicalizeItems rt.numberToString path index rest := by
      induction rest generalizing index with
      | nil => rfl
      | cons v rest hmore =>
        rw [List.forall_mem_cons] at hrest
        rw [List.map_cons, canonicalizeItems, canonicalizeItems, ih v hrest.1,
          hmore _ hrest.2]
    rw [normal_arr, canonicalize, canonicalize, hitems 0 items fun _ hv ↦ hv]
  | obj ms ih =>
    rw [normal_obj_eq, canonicalize, canonicalize, canonicalizeMembers_eq_map,
      canonicalizeMembers_eq_map, normalOf, List.map_map, Function.comp_def]
    have hmember (m : JsString × Json) (hm : m ∈ sortMembers ms) :
        (m.1, memberResult path m.1
          (canonicalize rt.numberToString (path ++ js "." ++ m.1) m.2.normal)) =
        (m.1, memberResult path m.1
          (canonicalize rt.numberToString (path ++ js "." ++ m.1) m.2)) := by
      rw [ih m ((Json.sortMembers_perm ms).mem_iff.mp hm)]
    rw [List.map_congr_left hmember,
      sortMembers_map fun m : JsString × Json ↦ memberResult path m.1
        (canonicalize rt.numberToString (path ++ js "." ++ m.1) m.2),
      sortMembers_map fun m : JsString × Json ↦ memberResult path m.1
        (canonicalize rt.numberToString (path ++ js "." ++ m.1) m.2), sortMembers_sortMembers]
  | _ => rfl

theorem digestValue_normal (v : Json) : digestValue rt v.normal = digestValue rt v := by
  rw [digestValue, digestValue, canonicalizeBytes, canonicalizeBytes, canonicalize_normal h]

theorem calculateObjectDigest_normal (object : Members) :
    calculateObjectDigest rt (normalOf object) = calculateObjectDigest rt object := by
  rw [calculateObjectDigest, calculateObjectDigest, withoutMember_normalOf, ← normal_obj_eq,
    digestValue_normal h]

theorem calculatePayloadDigest_normal (bundle : Members) :
    calculatePayloadDigest rt (normalOf bundle) = calculatePayloadDigest rt bundle := by
  rw [calculatePayloadDigest, calculatePayloadDigest, member_normalOf]
  cases member bundle (js "payload") with
  | none =>
    rw [Option.map_none, Option.getD_none, Option.getD_none, ← normal_obj_eq, digestValue_normal h]
  | some payload => exact digestValue_normal h payload

end

section

variable (v w : Option Json)

@[simp] theorem validDigest_normal : validDigest (v.map Json.normal) = validDigest v := by
  simp only [validDigest, exactKeys_normal, get_normal, isText_normal, isSha256Hex_normal]

@[simp] theorem digestEquals_normal_left :
    digestEquals (v.map Json.normal) w = digestEquals v w := by
  simp only [digestEquals, truthy_normal, get_normal, strictEqual_normal_left]

@[simp] theorem digestEquals_normal_right :
    digestEquals v (w.map Json.normal) = digestEquals v w := by
  simp only [digestEquals, truthy_normal, get_normal, strictEqual_normal_right]

end

theorem duplicates_map {α β : Type} {same : α → α → Bool} {same' : β → β → Bool} (f : α → β)
    (hsame : ∀ x y, same' (f x) (f y) = same x y) (seen xs : List α) :
    duplicates same' (seen.map f) (xs.map f) = (duplicates same seen xs).map f := by
  induction xs generalizing seen with
  | nil => rfl
  | cons x rest ih =>
    have hany : (seen.map f).any (same' (f x)) = seen.any (same x) := by
      rw [List.any_map]
      simp only [Function.comp_def, hsame]
    have hrest := ih (x :: seen)
    rw [List.map_cons] at hrest
    rw [List.map_cons, duplicates, duplicates, hany, ih, hrest]
    split <;> rfl

theorem repeatsValue_normal (values : List (Option Json)) :
    repeatsValue (values.map (Option.map Json.normal)) = repeatsValue values := by
  have hmap := duplicates_map (Option.map Json.normal)
    (fun v w ↦ (sameValueZero_normal_left v _).trans (sameValueZero_normal_right v w)) [] values
  exact congrArg Bool.not ((congrArg List.isEmpty hmap).trans List.isEmpty_map)

/-! ### The checks -/

section

variable {ε ι α β σ τ : Type} {next : σ → Nat → β → σ} {next' : τ → Nat → α → τ}
  {check : σ → Nat → β → Check ε ι} {check' : τ → Nat → α → Check ε ι} {f : α → β} {g : τ → σ}

/-- A visit of changed elements, in changed states, that finds what the visit of the elements
finds. -/
theorem visit_map (hnext : ∀ s i x, next (g s) i (f x) = g (next' s i x))
    (hcheck : ∀ s i x, check (g s) i (f x) = check' s i x) (s : τ) (i : Nat) (xs : List α) :
    Check.visit next check (g s) i (xs.map f) = Check.visit next' check' s i xs := by
  induction xs generalizing s i with
  | nil => rfl
  | cons x rest ih => rw [List.map_cons, Check.visit, Check.visit, hcheck, hnext, ih]

theorem visited_map (hnext : ∀ s i x, next (g s) i (f x) = g (next' s i x)) (s : τ) (i : Nat)
    (xs : List α) :
    Check.visited next (g s) i (xs.map f) = g (Check.visited next' s i xs) := by
  induction xs generalizing s i with
  | nil => rfl
  | cons x rest ih => rw [List.map_cons, Check.visited, Check.visited, hnext, ih]

theorem each_map {check : Nat → β → Check ε ι} {check' : Nat → α → Check ε ι}
    (hcheck : ∀ i x, check i (f x) = check' i x) (xs : List α) :
    Check.each check (xs.map f) = Check.each check' xs := by
  rw [Check.each, Check.each]
  exact visit_map (g := fun u : Unit ↦ u) (fun _ _ _ ↦ rfl) (fun _ i x ↦ hcheck i x) () 0 xs

end

section

variable (v : Option Json) (ms : Members) (path : JsString)

@[simp] theorem requireText_normal (name : String) (code : ErrorCode) (message : String) :
    requireText (normalOf ms) name code message path = requireText ms name code message path := by
  rw [requireText, requireText, member_normalOf, isNonEmptyString_normal]

@[simp] theorem requireObject_normal (name : String) (code : ErrorCode) (message : String) :
    requireObject (normalOf ms) name code message path =
      requireObject ms name code message path := by
  rw [requireObject, requireObject, member_normalOf, isObject_normal]

@[simp] theorem exactKeys_obj_normal (names : List JsString) :
    exactKeys (some (.obj (normalOf ms))) names = exactKeys (some (.obj ms)) names := by
  rw [← normal_obj_eq]
  exact exactKeys_normal (some (.obj ms)) names

@[simp] theorem allowedKeys_obj_normal (required optional : List JsString) :
    allowedKeys (some (.obj (normalOf ms))) required optional =
      allowedKeys (some (.obj ms)) required optional := by
  rw [← normal_obj_eq]
  exact allowedKeys_normal (some (.obj ms)) required optional

@[simp] theorem verifyEntityRef_normal (code : ErrorCode) :
    verifyEntityRef (v.map Json.normal) path code = verifyEntityRef v path code := by
  rcases v with _ | (_ | _ | _ | _ | _ | ms)
  case some.obj =>
    rw [Option.map_some, normal_obj_eq]
    simp only [verifyEntityRef, allowedKeys_obj_normal, requireText_normal, member_normalOf,
      isString_normal, Option.isSome_map]
  all_goals rfl

theorem verifyIdentifier_normal (index : Nat) (identifier : Json) :
    verifyIdentifier path index identifier.normal = verifyIdentifier path index identifier := by
  cases identifier with
  | obj ms =>
    rw [normal_obj_eq]
    simp only [verifyIdentifier, exactKeys_obj_normal, requireText_normal]
  | _ => rfl

theorem verifyKey_normal (index : Nat) (key : Json) :
    verifyKey path index key.normal = verifyKey path index key := by
  cases key with
  | obj ms =>
    rw [normal_obj_eq]
    simp only [verifyKey, allowedKeys_obj_normal, requireText_normal, member_normalOf,
      isText_normal, isPemPublicKey_normal, validUtcTimestamp_normal, compareTimestamps_normal,
      isNonEmptyString_normal, Option.isSome_map]
  | _ => rfl

theorem filter_isObject_normal (items : List Json) :
    ((items.map Json.normal).filter fun v ↦ isObject (some v)) =
      (items.filter fun v ↦ isObject (some v)).map Json.normal := by
  rw [List.filter_map]
  refine congrArg (List.map Json.normal) (List.filter_congr fun v _ ↦ ?_)
  exact isObject_normal (some v)

@[simp] theorem verifyKeys_normal : verifyKeys (v.map Json.normal) path = verifyKeys v path := by
  rcases v with _ | (_ | _ | _ | _ | keys | _)
  case some.arr =>
    have hids : (((keys.filter fun v ↦ isObject (some v)).map Json.normal).map fun key ↦
        get (some key) (js "key_id")) = ((keys.filter fun v ↦ isObject (some v)).map fun key ↦
        get (some key) (js "key_id")).map (Option.map Json.normal) := by
      simp only [List.map_map, Function.comp_def, get_some_normal]
    rw [Option.map_some, normal_arr, verifyKeys, verifyKeys,
      each_map (verifyKey_normal path), filter_isObject_normal, hids, repeatsValue_normal]
  all_goals rfl

@[simp] theorem verifyEvidenceRefs_normal :
    verifyEvidenceRefs (v.map Json.normal) path = verifyEvidenceRefs v path := by
  rcases v with _ | (_ | _ | _ | _ | refs | _)
  case some.arr =>
    have hrefs :
        (refs.map Json.normal).map some = (refs.map some).map (Option.map Json.normal) := by
      simp only [List.map_map, Function.comp_def, Option.map_some]
    rw [Option.map_some, normal_arr, verifyEvidenceRefs, verifyEvidenceRefs, hrefs,
      repeatsValue_normal]
  all_goals rfl

theorem isEventType_normal (v : Json) : isEventType v.normal = isEventType v := by
  cases v <;> rfl

@[simp] theorem verifyClaimScope_normal :
    verifyClaimScope (v.map Json.normal) path = verifyClaimScope v path := by
  have hitems (items : List Json) :
      (items.map Json.normal).map some = (items.map some).map (Option.map Json.normal) := by
    simp only [List.map_map, Function.comp_def, Option.map_some]
  simp only [verifyClaimScope, isArray_normal, itemsOf_normal, List.isEmpty_map, List.any_map,
    Function.comp_def, isEventType_normal, hitems, repeatsValue_normal]

@[simp] theorem verifyProofTarget_normal :
    verifyProofTarget (v.map Json.normal) path = verifyProofTarget v path := by
  rcases v with _ | (_ | _ | _ | _ | _ | ms)
  case some.obj =>
    rw [Option.map_some, normal_obj_eq]
    simp only [verifyProofTarget, targetExpectedKeys, exactKeys_obj_normal, member_normalOf,
      isText_normal, isOneOf_normal, isNonEmptyString_normal, validDigest_normal,
      Option.isSome_map]
  all_goals rfl

@[simp] theorem verifyProofShape_normal (issuerIds : List JsString) :
    verifyProofShape issuerIds (normalOf ms) path = verifyProofShape issuerIds ms path := by
  simp only [verifyProofShape, exactKeys_obj_normal, requireText_normal, member_normalOf,
    isText_normal, isOneOf_normal, verifyProofTarget_normal, isVerificationMethod_normal,
    validUtcTimestamp_normal, canonicalBase64url_normal]

end

section

variable {rt : Runtime} (h : rt.SeesData) (v : Option Json) (ms : Members) (path : JsString)
include h

theorem verifyObjectDigest_normal :
    verifyObjectDigest rt (normalOf ms) path = verifyObjectDigest rt ms path := by
  simp only [verifyObjectDigest, member_normalOf, validDigest_normal,
    calculateObjectDigest_normal h, digestEquals_normal_right]

theorem digestKey_normal (digest : Json) : digestKey rt digest.normal = digestKey rt digest := by
  simp only [digestKey, get_some_normal, textOf_normal h]

theorem identifierKey_normal (identifier : Json) :
    identifierKey rt identifier.normal = identifierKey rt identifier := by
  simp only [identifierKey, get_some_normal, textOf_normal h]

theorem verifyIdentifiers_normal :
    verifyIdentifiers rt (v.map Json.normal) path = verifyIdentifiers rt v path := by
  rcases v with _ | (_ | _ | _ | _ | identifiers | _)
  case some.arr =>
    rw [Option.map_some, normal_arr, verifyIdentifiers, verifyIdentifiers,
      each_map (verifyIdentifier_normal path), filter_isObject_normal, List.map_map]
    simp only [Function.comp_def, identifierKey_normal h]
  all_goals rfl

theorem verifyIssuer_normal (issuer : Json) :
    verifyIssuer rt issuer.normal path = verifyIssuer rt issuer path := by
  cases issuer with
  | obj ms =>
    rw [normal_obj_eq]
    simp only [verifyIssuer, exactKeys_obj_normal, requireText_normal, requireObject_normal,
      member_normalOf, isOneOf_normal, verifyIdentifiers_normal h, verifyKeys_normal]
  | _ => rfl

theorem requirePattern_normal (pattern : Regex CodeUnit) (code : ErrorCode) (message : String) :
    requirePattern rt pattern (v.map Json.normal) code message path =
      requirePattern rt pattern v code message path := by
  rw [requirePattern, requirePattern, textOrEmpty_normal h]

theorem verifyEventVocabulary_normal :
    verifyEventVocabulary rt (normalOf ms) path = verifyEventVocabulary rt ms path := by
  simp only [verifyEventVocabulary, member_normalOf, isOneOf_normal, textOrEmpty_normal h,
    validateEventVocabulary, startsWithReservedNamespace_normal, stringOf_normal]

theorem verifyParentDigests_normal :
    verifyParentDigests rt (v.map Json.normal) path = verifyParentDigests rt v path := by
  rcases v with _ | (_ | _ | _ | _ | parents | _)
  case some.arr =>
    rw [Option.map_some, normal_arr, verifyParentDigests, verifyParentDigests, List.map_map]
    simp only [Function.comp_def, digestKey_normal h]
  all_goals rfl

theorem verifyEvent_normal (issuerIds : List JsString) (event : Json) :
    verifyEvent rt issuerIds event.normal path = verifyEvent rt issuerIds event path := by
  cases event with
  | obj ms =>
    rw [normal_obj_eq]
    simp only [verifyEvent, exactKeys_obj_normal, requireText_normal, requireObject_normal,
      member_normalOf, isOneOf_normal, requirePattern_normal h, validUtcTimestamp_normal,
      compareTimestamps_normal, verifyParentDigests_normal h, verifyEvidenceRefs_normal,
      verifyEntityRef_normal, verifyEventVocabulary_normal h, verifyObjectDigest_normal h]
  | _ => rfl

theorem verifyLocator_normal :
    verifyLocator rt (v.map Json.normal) path = verifyLocator rt v path := by
  rcases v with _ | (_ | _ | _ | _ | _ | ms)
  case some.obj =>
    rw [Option.map_some, normal_obj_eq]
    simp only [verifyLocator, exactKeys_obj_normal, requireText_normal, member_normalOf,
      isOneOf_normal, isText_normal, isHttpsUrl, textOf_normal h]
  all_goals rfl

theorem verifyEvidence_normal (issuerIds : List JsString) (evidence : Json) :
    verifyEvidence rt issuerIds evidence.normal path =
      verifyEvidence rt issuerIds evidence path := by
  cases evidence with
  | obj ms =>
    rw [normal_obj_eq]
    simp only [verifyEvidence, exactKeys_obj_normal, requireText_normal, requireObject_normal,
      member_normalOf, isOneOf_normal, requirePattern_normal h, validDigest_normal,
      verifyLocator_normal h, verifyClaimScope_normal, verifyObjectDigest_normal h]
  | _ => rfl

theorem verifyRelationship_normal (relationship : Json) :
    verifyRelationship rt relationship.normal path = verifyRelationship rt relationship path := by
  cases relationship with
  | obj ms =>
    rw [normal_obj_eq]
    simp only [verifyRelationship, verifyRelationshipVocabulary, validateRelationshipVocabulary,
      exactKeys_obj_normal, requireText_normal, requireObject_normal, member_normalOf,
      isOneOf_normal, requirePattern_normal h, strictEqual_normal_left, strictEqual_normal_right,
      textOrEmpty_normal h, refKind_normal, stringOf_normal, verifyObjectDigest_normal h]
  | _ => rfl

end

theorem normalOf_values (ms : Members) :
    normalOf (ms.map fun m ↦ (m.1, m.2.normal)) = normalOf ms := by
  rw [normalOf, sortMembers_normal, List.map_map, normalOf]
  simp only [Function.comp_def, normal_normal]

theorem normal_digestObject (hex : JsString) : (digestObject hex).normal = digestObject hex := rfl

theorem normal_of_digestValue {rt : Runtime} {v digest : Json} (h : digestValue rt v = .ok digest) :
    digest.normal = digest := by
  obtain ⟨bytes, -, rfl⟩ := map_eq_ok_iff.mp h
  exact normal_digestObject _

theorem findById_cons {idField : JsString} {id : Option Json} {item : Json} (hitem : item ≠ .null)
    (rest : List Json) : findById idField id (item :: rest) =
      if strictEqual (get (some item) idField) id then .ok (some item)
      else findById idField id rest := by
  cases item with
  | null => exact absurd rfl hitem
  | _ => rfl

theorem findById_normal (idField : JsString) (id : Option Json) (items : List Json) :
    findById idField (id.map Json.normal) (items.map Json.normal) =
      (findById idField id items).map (Option.map Json.normal) := by
  induction items with
  | nil => rfl
  | cons item rest ih =>
    by_cases hnull : item = .null
    · subst hnull
      rfl
    · have hnormal : item.normal ≠ .null := by
        cases item with
        | null => exact absurd rfl hnull
        | _ => simp [Json.normal]
      rw [List.map_cons, findById_cons hnormal, findById_cons hnull, get_some_normal,
        strictEqual_normal_left, strictEqual_normal_right, ih]
      split <;> rfl

/-- The resolved target of a representative. -/
def Resolved.normal (r : Resolved) : Resolved :=
  ⟨r.id.map Json.normal, r.digest.map Json.normal, r.value.normal⟩

section

variable {rt : Runtime} (h : rt.SeesData)
include h

theorem resolveTarget_normal (bundle : Members) (target : Option Json) :
    resolveTarget rt (normalOf bundle) (target.map Json.normal) =
      (resolveTarget rt bundle target).map (Option.map Resolved.normal) := by
  simp only [resolveTarget, isObject_normal, isArray_normal, member_normalOf, membersOf_normal,
    get_normal, isText_normal, calculatePayloadDigest_normal h, textOf_normal h, itemsOf_normal,
    findById_normal]
  split
  · rfl
  split
  · cases hdigest : calculatePayloadDigest rt bundle with
    | error message => rfl
    | ok digest =>
      have hsame : digest.normal = digest := normal_of_digestValue hdigest
      simp only [Except.map, Option.map_some, Resolved.normal, hsame, normal_obj_eq]
  split
  · rfl
  · split
    · split <;> rfl
    · next collectionName idField _ =>
      generalize findById idField (get target (js "target_id"))
        (itemsOf (member (membersOf (member bundle (js "payload"))) collectionName)) = found
      rcases found with thrown | (_ | object)
      · rfl
      · rfl
      · have htruthy : truthy (some object.normal) = truthy (some object) :=
          truthy_normal (some object)
        simp only [Except.map, Option.map_some, htruthy, get_some_normal]
        split <;> rfl

theorem buildSignatureInput_normal (specVersion profile targetType targetDigest : Option Json) :
    buildSignatureInput rt (specVersion.map Json.normal) (profile.map Json.normal)
        (targetType.map Json.normal) (targetDigest.map Json.normal) =
      buildSignatureInput rt specVersion profile targetType targetDigest := by
  have hdefined (key : JsString) (v : Option Json) :
      definedMember key (v.map Json.normal) = (definedMember key v).map Json.normal := by
    cases v <;> rfl
  have hobject (s p t d : Json) :
      canonicalizeBytes rt.numberToString
        (signatureInputObject s.normal p.normal t.normal d.normal) =
      canonicalizeBytes rt.numberToString (signatureInputObject s p t d) := by
    have hnormal : (signatureInputObject s.normal p.normal t.normal d.normal).normal =
        (signatureInputObject s p t d).normal := by
      rw [signatureInputObject, signatureInputObject, normal_obj_eq, normal_obj_eq,
        ← normalOf_values [(js "domain", .str signatureDomain), (js "profile", p),
          (js "spec_version", s), (js "target_digest", d), (js "target_type", t)]]
      rfl
    rw [canonicalizeBytes, canonicalizeBytes, ← canonicalize_normal h, hnormal,
      canonicalize_normal h]
  simp only [buildSignatureInput, hdefined]
  cases definedMember (js "profile") profile with
  | error message => rfl
  | ok p =>
    cases definedMember (js "spec_version") specVersion with
    | error message => rfl
    | ok s =>
      cases definedMember (js "target_digest") targetDigest with
      | error message => rfl
      | ok d =>
        cases definedMember (js "target_type") targetType with
        | error message => rfl
        | ok t => exact hobject s p t d

theorem checkSignature_normal (payload proof : Members) (key : Json) :
    checkSignature rt (normalOf payload) (normalOf proof) key.normal =
      checkSignature rt payload proof key := by
  simp only [checkSignature, member_normalOf, get_normal, get_some_normal,
    buildSignatureInput_normal h, h.publicKey, base64urlDecodeCanonical_normal]

theorem outsideBound_normal (bound createdAt : Option Json)
    (excludes : Option Int → Option Int → Bool) :
    outsideBound rt (bound.map Json.normal) (createdAt.map Json.normal) excludes =
      outsideBound rt bound createdAt excludes := by
  simp only [outsideBound, truthy_normal, dateParseOf, textOf_normal h]

theorem verifyWithKey_normal (payload proof : Members) (key : Json) :
    verifyWithKey rt (normalOf payload) (normalOf proof) key.normal =
      verifyWithKey rt payload proof key := by
  simp only [verifyWithKey, member_normalOf, get_some_normal, isText_normal,
    outsideBound_normal h, checkSignature_normal h]

omit h in
theorem findKey_normal (issuer : Json) (keyId : JsString) :
    findKey issuer.normal keyId = (findKey issuer keyId).map (Option.map Json.normal) := by
  rw [findKey, findKey, get_some_normal]
  rcases get (some issuer) (js "keys") with _ | (_ | _ | _ | _ | keys | _)
  case some.arr =>
    rw [Option.map_some, normal_arr]
    exact findById_normal (js "key_id") (some (.str keyId)) keys
  all_goals rfl

theorem verifyWithIssuer_normal (payload proof : Members) (issuer : Option Json) :
    verifyWithIssuer rt (normalOf payload) (normalOf proof) (issuer.map Json.normal) =
      verifyWithIssuer rt payload proof issuer := by
  have hissuer : (issuer.map Json.normal).getD .null = (issuer.getD .null).normal := by
    cases issuer <;> rfl
  rw [verifyWithIssuer, verifyWithIssuer, member_normalOf]
  rcases member proof (js "verification_method") with _ | (_ | _ | _ | method | _ | _)
  case some.str =>
    simp only [Option.map_some, Json.normal, member_normalOf, isText_normal, get_normal, hissuer,
      findKey_normal]
    split
    · rfl
    split
    · rfl
    · next issuerId keyId _ _ =>
      rcases findKey (issuer.getD .null) keyId with thrown | (_ | key)
      · rfl
      · rfl
      · exact verifyWithKey_normal h payload proof key
  all_goals rfl

theorem verifySignatureProof_normal (bundle proof : Members) (issuer : Option Json) :
    verifySignatureProof rt (normalOf bundle) (normalOf proof) (issuer.map Json.normal) =
      verifySignatureProof rt bundle proof issuer := by
  simp only [verifySignatureProof, member_normalOf, resolveTarget_normal h, membersOf_normal,
    get_normal, verifyWithIssuer_normal h]
  rcases resolveTarget rt bundle (member proof (js "target")) with thrown | (_ | resolved)
  · rfl
  · rfl
  · simp only [Except.map, Option.map_some, Resolved.normal, digestEquals_normal_left,
      digestEquals_normal_right]

end

/-- The sections of a representative. -/
def Sections.normal (s : Sections) : Sections where
  issuers := s.issuers.map Json.normal
  events := s.events.map Json.normal
  evidence := s.evidence.map Json.normal
  relationships := s.relationships.map Json.normal
  predecessors := s.predecessors.map Json.normal
  proofs := s.proofs.map Json.normal

theorem sectionsOf_normal (bundle : Members) :
    sectionsOf (normalOf bundle) = (sectionsOf bundle).normal := by
  simp only [sectionsOf, Sections.normal, member_normalOf, membersOf_normal, itemsOf_normal]

theorem stringId_normal (idField : JsString) (item : Json) :
    stringId idField item.normal = stringId idField item := by
  rw [stringId, stringId, get_some_normal]
  rcases get (some item) idField with _ | (_ | _ | _ | _ | _ | _) <;> rfl

theorem idsOf_normal (idField : JsString) (items : List Json) :
    idsOf idField (items.map Json.normal) = idsOf idField items := by
  rw [idsOf, idsOf, List.filterMap_map]
  simp only [Function.comp_def, stringId_normal]

theorem Sections.issuerIds_normal (s : Sections) : s.normal.issuerIds = s.issuerIds :=
  idsOf_normal _ s.issuers

theorem registerId_normal (registry : Registry) (id : Option Json) (path : JsString) :
    registerId registry (id.map Json.normal) path = registerId registry id path :=
  shallow (registerId registry · path) (fun _ _ ↦ rfl) (fun _ _ ↦ rfl) (fun _ _ ↦ rfl) id

theorem duplicateIdCheck_normal (registry : Registry) (id : Option Json) (path : JsString) :
    duplicateIdCheck registry (id.map Json.normal) path = duplicateIdCheck registry id path :=
  shallow (duplicateIdCheck registry · path) (fun _ _ ↦ rfl) (fun _ _ ↦ rfl) (fun _ _ ↦ rfl) id

theorem Collection.register_normal (c : Collection) (registry : Registry) (index : Nat)
    (item : Json) : c.register registry index item.normal = c.register registry index item := by
  rw [Collection.register, Collection.register, Collection.idOf, Collection.idOf, get_some_normal,
    registerId_normal]

theorem Collection.registered_normal (c : Collection) (registry : Registry) (items : List Json) :
    c.registered registry (items.map Json.normal) = c.registered registry items :=
  visited_map (g := fun r : Registry ↦ r) c.register_normal registry 0 items

theorem Collection.verify_normal (c : Collection) {check : Json → JsString → BundleCheck}
    (hcheck : ∀ item path, check item.normal path = check item path) (registry : Registry)
    (items : List Json) :
    c.verify check registry (items.map Json.normal) = c.verify check registry items := by
  refine visit_map (g := fun r : Registry ↦ r) c.register_normal (fun registry index item ↦ ?_)
    registry 0 items
  rw [hcheck, Collection.idOf, Collection.idOf, get_some_normal, duplicateIdCheck_normal]

theorem eventDigests_normal (events : List Json) :
    eventDigests (events.map Json.normal) = (eventDigests events).map (Option.map Json.normal) := by
  rw [eventDigests, eventDigests, List.map_map, List.filter_map, List.filter_map, List.map_map]
  simp only [Function.comp_def, get_some_normal, get_normal, truthy_normal]

theorem verifyParent_normal (digests : List (Option Json)) (event : Json) (path : JsString)
    (parent : Json) :
    verifyParent (digests.map (Option.map Json.normal)) event.normal path parent.normal =
      verifyParent digests event path parent := by
  have hdigest : validDigest (some parent.normal) = validDigest (some parent) :=
    validDigest_normal (some parent)
  simp only [verifyParent, hdigest, get_some_normal, get_normal, List.any_map, Function.comp_def,
    sameValueZero_normal_left, sameValueZero_normal_right, strictEqual_normal_left,
    strictEqual_normal_right]

theorem verifyEventReferences_normal (s : Sections) (index : Nat) (event : Json) :
    verifyEventReferences s.normal index event.normal = verifyEventReferences s index event := by
  have href (ids : List JsString) (ref : Json) :
      isOneOf ids (some ref.normal) = isOneOf ids (some ref) := isOneOf_normal (some ref) ids
  simp only [verifyEventReferences, get_some_normal, iterate_normal, Sections.normal, idsOf_normal,
    eventDigests_normal]
  rcases iterate (get (some event) (js "parent_event_digests")) with thrown | parents
  · rfl
  rcases iterate (get (some event) (js "evidence_refs")) with thrown | refs
  · rfl
  · simp only [Except.map, List.map_map, Function.comp_def, verifyParent_normal, href]

theorem verifyEndpoints_normal (refs : List JsString) (index : Nat) (relationship : Json) :
    verifyEndpoints refs index relationship.normal = verifyEndpoints refs index relationship := by
  simp only [verifyEndpoints, get_some_normal, isOneOf_normal]

section

variable {rt : Runtime} (h : rt.SeesData)
include h

theorem verifyIssuers_normal (issuers : List Json) :
    verifyIssuers rt (issuers.map Json.normal) = verifyIssuers rt issuers := by
  refine visit_map (g := fun seen : List JsString ↦ seen) (fun seen _ issuer ↦ ?_)
    (fun seen index issuer ↦ ?_) [] 0 issuers
  · exact congrArg (seen ++ ·) (idsOf_normal (js "issuer_id") [issuer])
  · simp only [verifyIssuer_normal h, get_some_normal, isOneOf_normal]

theorem verifyObjects_normal (s : Sections) : verifyObjects rt s.normal = verifyObjects rt s := by
  have hevents := eventCollection.verify_normal
    (fun item path ↦ verifyEvent_normal h path s.issuerIds item)
  have hevidence := evidenceCollection.verify_normal
    (fun item path ↦ verifyEvidence_normal h path s.issuerIds item)
  have hrelationships := relationshipCollection.verify_normal
    (fun item path ↦ verifyRelationship_normal h path item)
  rw [verifyObjects, verifyObjects, s.issuerIds_normal]
  simp only [Sections.normal, hevents, hevidence, hrelationships, Collection.registered_normal]

theorem resolvableRefs_normal (s : Sections) :
    resolvableRefs rt s.normal = resolvableRefs rt s := by
  have htyped (kind idField : String) (items : List Json) :
      typedRefs rt kind idField (items.map Json.normal) = typedRefs rt kind idField items := by
    simp only [typedRefs, List.map_map, Function.comp_def, get_some_normal, textOf_normal h]
  simp only [resolvableRefs, Sections.normal, htyped]

theorem verifyReferences_normal (s : Sections) :
    verifyReferences rt s.normal = verifyReferences rt s := by
  have hevents : Check.each (verifyEventReferences s.normal) s.normal.events =
      Check.each (verifyEventReferences s) s.events :=
    each_map (verifyEventReferences_normal s) s.events
  have hendpoints (refs : List JsString) :
      Check.each (verifyEndpoints refs) s.normal.relationships =
        Check.each (verifyEndpoints refs) s.relationships :=
    each_map (verifyEndpoints_normal refs) s.relationships
  simp only [verifyReferences, hevents, resolvableRefs_normal h, hendpoints]

theorem verifyPredecessors_normal (predecessors : List Json) :
    verifyPredecessors rt (predecessors.map Json.normal) = verifyPredecessors rt predecessors := by
  have hdigest (digest : Json) : validDigest (some digest.normal) = validDigest (some digest) :=
    validDigest_normal (some digest)
  refine congrArg₂ Check.both (each_map (fun index digest ↦ ?_) predecessors) ?_
  · rw [hdigest]
  · simp only [List.map_map, Function.comp_def, digestKey_normal h]

omit h in
theorem issuerOf_normal (issuers : List Json) (proof : Members) :
    issuerOf (issuers.map Json.normal) (normalOf proof) =
      (issuerOf issuers proof).map Json.normal := by
  rw [issuerOf, issuerOf, List.find?_map]
  simp only [Function.comp_def, get_some_normal, member_normalOf, strictEqual_normal_left,
    strictEqual_normal_right]

theorem proofResult_normal (bundle : Members) (issuers : List Json) (proof : Members) :
    proofResult rt (normalOf bundle) (issuers.map Json.normal) (normalOf proof) =
      proofResult rt bundle issuers proof := by
  rw [proofResult, proofResult, issuerOf_normal, verifySignatureProof_normal h]

theorem verifyProofs_normal (bundle : Members) (s : Sections) :
    verifyProofs rt (normalOf bundle) s.normal = verifyProofs rt bundle s := by
  refine visit_map (g := List.map (Option.map Json.normal)) (fun seen _ proof ↦ ?_)
    (fun seen index proof ↦ ?_) [] 0 s.proofs
  · cases proof with
    | obj ms =>
      rw [normal_obj_eq]
      simp only [member_normalOf, List.map_append, List.map_cons, List.map_nil]
    | _ => rfl
  · cases proof with
    | obj ms =>
      have hissuers : s.normal.issuers = s.issuers.map Json.normal := rfl
      rw [normal_obj_eq]
      simp only [s.issuerIds_normal, verifyProofShape_normal, member_normalOf, List.any_map,
        Function.comp_def, sameValueZero_normal_left, sameValueZero_normal_right,
        verifyProofSignature, hissuers, proofResult_normal h]
    | _ => rfl

theorem verifyContent_normal (bundle : Members) :
    verifyContent rt (normalOf bundle) = verifyContent rt bundle := by
  have hsections := sectionsOf_normal bundle
  simp only [verifyContent, hsections, verifyObjects_normal h, verifyReferences_normal h,
    verifyProofs_normal h, payloadDigestCheck, calculatePayloadDigest_normal h]
  simp only [Sections.normal, verifyIssuers_normal h, verifyPredecessors_normal h]

end

/-! ### The result -/

/-- An entry of `valid_proofs` with the representatives of what it copies from the bundle. -/
def ValidProof.normal (p : ValidProof) : ValidProof :=
  ⟨p.proofId.map Json.normal, p.issuerRef.map Json.normal, p.target.map Json.normal⟩

/-- A result with the representatives of what it copies from the bundle. -/
def Verification.normal (r : Verification) : Verification :=
  { r with validProofs := r.validProofs.map ValidProof.normal }

theorem verifyEnvelope_normal (bundle : Json) :
    verifyEnvelope bundle.normal = verifyEnvelope bundle := by
  cases bundle with
  | obj ms =>
    rw [normal_obj_eq]
    simp only [verifyEnvelope, exactKeys_obj_normal, requireObject_normal, member_normalOf,
      isArray_normal]
  | _ => rfl

theorem verifyPayload_normal (payload : Members) :
    verifyPayload (normalOf payload) = verifyPayload payload := by
  simp only [verifyPayload, exactKeys_obj_normal, member_normalOf, isText_normal,
    requireText_normal, validUtcTimestamp_normal, isArray_normal, requireObject_normal]

section

variable {rt : Runtime} (h : rt.SeesData)
include h

theorem validProofs_normal (bundle : Members) (s : Sections) :
    validProofs rt (normalOf bundle) s.normal =
      (validProofs rt bundle s).map ValidProof.normal := by
  have hproofs : s.normal.proofs = s.proofs.map Json.normal := rfl
  have hissuers : s.normal.issuers = s.issuers.map Json.normal := rfl
  rw [validProofs, validProofs, hproofs, hissuers, List.filterMap_map, List.map_filterMap]
  refine List.filterMap_congr fun proof _ ↦ ?_
  cases proof with
  | obj ms =>
    simp only [Function.comp_apply, normal_obj_eq, proofResult_normal h, member_normalOf]
    rcases proofResult rt bundle s.issuers ms with thrown | (_ | _) <;> rfl
  | _ => rfl

theorem conclude_normal (bundle : Members) (errors : List Issue) :
    conclude rt (normalOf bundle) errors = (conclude rt bundle errors).normal := by
  have hreasons (s : Sections) : incompleteReasons s.normal = incompleteReasons s := by
    simp only [incompleteReasons, Sections.normal, List.isEmpty_map]
  simp only [conclude, sectionsOf_normal, calculatePayloadDigest_normal h, hreasons,
    validProofs_normal h]
  split
  · simp only [Verification.normal, Sections.normal, List.length_map]
  · rfl

/-- The verifier returns for the representative of a bundle what it returns for the bundle. -/
theorem verifyValue_normal (bundle : Json) :
    verifyValue rt bundle.normal = (verifyValue rt bundle).map Verification.normal := by
  have hmembers : membersOf (some bundle.normal) = normalOf (membersOf (some bundle)) :=
    membersOf_normal (some bundle)
  simp only [verifyValue, verifyEnvelope_normal, hmembers, member_normalOf, membersOf_normal,
    verifyPayload_normal, verifyContent_normal h]
  rcases verifyEnvelope bundle with thrown | (_ | ⟨issue, more⟩)
  · rfl
  · rcases verifyPayload (membersOf (member (membersOf (some bundle)) (js "payload"))) with
      thrown | (_ | ⟨issue, more⟩)
    · rfl
    · rcases verifyContent rt (membersOf (some bundle)) with thrown | issues
      · rfl
      · exact congrArg Except.ok (conclude_normal h _ issues)
    · rfl
  · rfl

end

/-- Two texts of the same data, whatever the order of members, the spaces and the escapes, are
verified alike: the results have the same status, issues, digest and counts, and list the same
valid proofs. -/
theorem same_data_verifies_alike (rt : Runtime) {text text' : JsString} {v w : Json}
    (h : rt.SeesData) (hv : parseJsonStrict text = .ok v) (hw : parseJsonStrict text' = .ok w)
    (hsame : v.Same w) : (verifyBundle rt (.str text)).map Verification.normal =
      (verifyBundle rt (.str text')).map Verification.normal := by
  have hunique : v.UniqueKeys := (parseJsonStrict_ok_iff.mp hv).2.2.unique
  have hnormal := (Json.same_iff_normal hunique w).mp hsame
  simp only [verifyBundle, readBundle, hv, hw]
  rw [← verifyValue_normal h.withoutPrototypes v, ← verifyValue_normal h.withoutPrototypes w,
    hnormal]

/-- The members of an object in another order are the same data. -/
theorem same_of_perm {ms ns : Members} (hunique : (Json.obj ms).UniqueKeys) (h : ms.Perm ns) :
    Json.Same (.obj ms) (.obj ns) := by
  rw [Json.Same, Json.sameMembers_iff]
  refine ⟨h.length_eq, fun m hm ↦ ⟨m.2, h.mem_iff.mp hm, ?_⟩⟩
  exact (Json.same_iff_normal (((Json.all_obj ms).mp hunique).2 m hm) m.2).mpr rfl

/-- The payload of the settled refund. -/
def settledPayload : Members :=
  membersOf (get (some settledBundle) (js "payload"))

/-- The settled refund with the members of its envelope and of its payload the other way. -/
def rearrangedBundle : Json :=
  .obj [(js "proofs", .arr [sampleProof]), (js "payload", .obj settledPayload.reverse)]

/-- The canonical text of the settled refund. -/
def settledText : JsString := canonicalText printZero settledBundle

/-- The text of the rearranged refund in a file, in many lines. -/
def rearrangedText : JsString := fileText printZero rearrangedBundle

private theorem settledTextValid :
    (verifyValue sampleRuntime.withoutPrototypes settledBundle.normal).toOption.map
      Verification.status = some .valid := by
  decide +kernel

/-- Two texts of the settled refund; the first one is VALID, and so is the second. -/
theorem same_data_verifies_alike_settled :
    (verifyBundle sampleRuntime (.str settledText)).toOption.map Verification.status =
        some .valid ∧
      (verifyBundle sampleRuntime (.str settledText)).map Verification.normal =
        (verifyBundle sampleRuntime (.str rearrangedText)).map Verification.normal := by
  have hhost : sampleRuntime.SeesData := by
    refine ⟨fun _ ↦ rfl, fun _ ↦ rfl, fun v ↦ ?_⟩
    simp only [sampleRuntime, isText_normal]
  have hstrict : settledBundle.Strict := by
    rw [Json.strict_iff_all]
    decide
  have hnumbers : NumbersPrintBack printZero settledBundle :=
    Json.All.of_noNumbers (by decide)
  have hfinite : FinitePrintBack printZero rearrangedBundle :=
    Json.All.of_noNumbers (by decide)
  have hrearranged : rearrangedBundle.WellFormedText ∧ rearrangedBundle.UniqueKeys := by
    unfold Json.WellFormedText Json.UniqueKeys
    decide
  have hparse : parseJsonStrict settledText = .ok settledBundle.normal :=
    parseJsonStrict_eq_ok_iff.mpr (parseText_canonicalText hstrict hnumbers)
  have hparse' : parseJsonStrict rearrangedText = .ok (ownOrdered (clone rearrangedBundle)) :=
    parseJsonStrict_ok_iff.mpr ⟨wellFormed_fileText hfinite, isText_fileText hfinite,
      strict_ownOrdered_clone.mpr hrearranged⟩
  have hsame : Json.Same settledBundle rearrangedBundle := by
    have hsettled : settledBundle =
        .obj [(js "payload", .obj settledPayload), (js "proofs", .arr [sampleProof])] := rfl
    have hunique := hstrict.unique
    rw [hsettled] at hunique ⊢
    have hmembers := ((Json.all_obj _).mp hunique).2
    rw [rearrangedBundle, Json.Same, Json.sameMembers_iff]
    refine ⟨rfl, fun m hm ↦ ?_⟩
    have hmember : m.2.UniqueKeys := hmembers m hm
    rcases List.mem_pair.mp hm with rfl | rfl
    · exact ⟨_, List.mem_cons_of_mem _ List.mem_cons_self,
        same_of_perm hmember (List.reverse_perm _).symm⟩
    · exact ⟨_, List.mem_cons_self, (Json.same_iff_normal hmember _).mpr rfl⟩
  have hunique : settledBundle.normal.UniqueKeys :=
    (parseJsonStrict_ok_iff.mp hparse).2.2.unique
  have hclone : clone rearrangedBundle = rearrangedBundle := rfl
  have hread : Json.Same settledBundle.normal (ownOrdered (clone rearrangedBundle)) := by
    rw [Json.same_iff_normal hunique, normal_normal, hclone, normal_ownOrdered hrearranged.2]
    exact (Json.same_iff_normal hstrict.unique _).mp hsame
  refine ⟨?_, same_data_verifies_alike sampleRuntime hhost hparse hparse' hread⟩
  have hvalid := settledTextValid
  simpa only [verifyBundle, readBundle, hparse] using hvalid

end TimeProofs.Core
