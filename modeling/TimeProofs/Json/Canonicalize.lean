import TimeProofs.Base.Check
import TimeProofs.Json.StrictCorrect

/-!
# Canonical JSON

`packages/core/src/canonicalize.mjs`. `canonicalize` succeeds exactly on well-formed finite data
and then yields `canonicalText`, which is a text of the grammar for the value's representative.
The strict parser therefore reads it back, and the canonical bytes determine the data up to
member order.
-/

namespace TimeProofs.Json

open TimeProofs.Base

/-- The path of an array element, `canonicalize.mjs:25`. -/
def elementPath (path : JsString) (index : Nat) : JsString :=
  path ++ [beginArray] ++ decimal index ++ [endArray]

/-- `[${texts.join(',')}]`. -/
def bracketed (texts : List JsString) : JsString :=
  beginArray :: (List.intercalate [valueSeparator] texts ++ [endArray])

/-- The members' texts between braces, joined by commas. -/
def braced (texts : List JsString) : JsString :=
  beginObject :: (List.intercalate [valueSeparator] texts ++ [endObject])

/-- The text of a member whose value has the given text, `canonicalize.mjs:29–35`. -/
def memberResult (path key : JsString) (text : Except JsString JsString) :
    Except JsString JsString :=
  match assertValidUnicode (path ++ js " property") key with
  | .error message => .error message
  | .ok _ => text.map fun text ↦ quoteJson key ++ [nameSeparator] ++ text

section

variable (print : Float → JsString)

mutual

/-- `canonicalize`, `canonicalize.mjs:12–43`; the error is the message of the `TypeError`. -/
def canonicalize (path : JsString) : Json → Except JsString JsString
  | .null => .ok (js "null")
  | .bool b => .ok (if b then js "true" else js "false")
  | .num x =>
    if !x.isFinite then .error (js "NON_FINITE_NUMBER at " ++ path) else .ok (print x)
  | .str s =>
    match assertValidUnicode path s with
    | .error message => .error message
    | .ok _ => .ok (quoteJson s)
  | .arr items => (collect (canonicalizeItems path 0 items)).map bracketed
  | .obj members =>
    (collect ((sortMembers (canonicalizeMembers path members)).map Prod.snd)).map braced

/-- The texts of array elements from the given index on. -/
def canonicalizeItems (path : JsString) : Nat → List Json → List (Except JsString JsString)
  | _, [] => []
  | index, v :: rest =>
    canonicalize (elementPath path index) v :: canonicalizeItems path (index + 1) rest

/-- The texts of members with their names, in the object's order. -/
def canonicalizeMembers (path : JsString) :
    Members → List (JsString × Except JsString JsString)
  | [] => []
  | (key, v) :: rest =>
    (key, memberResult path key (canonicalize (path ++ js "." ++ key) v)) ::
      canonicalizeMembers path rest

end

/-- `canonicalizeBytes`, `canonicalize.mjs:45–47`. -/
def canonicalizeBytes (v : Json) : Except JsString (List UInt8) :=
  (canonicalize print (js "$") v).map utf8

mutual

/-- The text that `canonicalize` yields when it succeeds. -/
def canonicalText : Json → JsString
  | .null => js "null"
  | .bool b => if b then js "true" else js "false"
  | .num x => print x
  | .str s => quoteJson s
  | .arr items => bracketed (canonicalItems items)
  | .obj members => braced ((sortMembers (canonicalMembers members)).map Prod.snd)

/-- The canonical texts of array elements. -/
def canonicalItems : List Json → List JsString
  | [] => []
  | v :: rest => canonicalText v :: canonicalItems rest

/-- The canonical texts of members with their names. -/
def canonicalMembers : Members → List (JsString × JsString)
  | [] => []
  | (key, v) :: rest =>
    (key, quoteJson key ++ [nameSeparator] ++ canonicalText v) :: canonicalMembers rest

end

theorem canonicalItems_eq_map (items : List Json) :
    canonicalItems print items = items.map (canonicalText print) := by
  induction items with
  | nil => rfl
  | cons v rest ih => rw [canonicalItems, ih, List.map_cons]

/-- The text of a member. -/
def memberText (m : JsString × Json) : JsString :=
  quoteJson m.1 ++ [nameSeparator] ++ canonicalText print m.2

theorem canonicalMembers_eq_map (ms : Members) :
    canonicalMembers print ms = ms.map fun m ↦ (m.1, memberText print m) := by
  induction ms with
  | nil => rfl
  | cons m rest ih =>
    rw [canonicalMembers, ih, List.map_cons]
    rfl

theorem canonicalizeMembers_eq_map (path : JsString) (ms : Members) :
    canonicalizeMembers print path ms = ms.map fun m ↦
      (m.1, memberResult path m.1 (canonicalize print (path ++ js "." ++ m.1) m.2)) := by
  induction ms with
  | nil => rfl
  | cons m rest ih => rw [canonicalizeMembers, ih, List.map_cons]

/-- Sorting looks at the names only. -/
theorem sortMembers_map {β γ : Type} (f : JsString × β → γ) (ms : List (JsString × β)) :
    sortMembers (ms.map fun m ↦ (m.1, f m)) = (sortMembers ms).map fun m ↦ (m.1, f m) :=
  (List.map_insertionSort (fun m n : JsString × β ↦ compareUtf16 m.1 n.1 ≤ 0)
    (fun m n : JsString × γ ↦ compareUtf16 m.1 n.1 ≤ 0) (fun m ↦ (m.1, f m)) ms
    fun _ _ _ _ ↦ Iff.rfl).symm

/-- The canonical text of an object lists its members in ascending order. -/
theorem canonicalText_obj (ms : Members) :
    canonicalText print (.obj ms) = braced ((sortMembers ms).map (memberText print)) := by
  rw [canonicalText, canonicalMembers_eq_map, sortMembers_map, List.map_map]
  rfl

/-- Data with well-formed strings and names and finite numbers. -/
def Encodable : Json → Prop :=
  Json.All (fun s ↦ wellFormed s = true) (fun x ↦ x.isFinite = true)
    (fun ks ↦ ∀ k ∈ ks, wellFormed k = true)

theorem encodable_arr (items : List Json) :
    Encodable (.arr items) ↔ ∀ v ∈ items, Encodable v := Json.all_arr items

theorem encodable_str (s : JsString) : Encodable (.str s) ↔ wellFormed s = true := by
  rw [Encodable, Json.All]

theorem encodable_obj (ms : Members) :
    Encodable (.obj ms) ↔ ∀ m ∈ ms, wellFormed m.1 = true ∧ Encodable m.2 := by
  rw [Encodable, Json.all_obj]
  constructor
  · exact fun h m hm ↦ ⟨h.1 m.1 (List.mem_map_of_mem hm), h.2 m hm⟩
  · refine fun h ↦ ⟨fun k hk ↦ ?_, fun m hm ↦ (h m hm).2⟩
    obtain ⟨m, hm, rfl⟩ := List.mem_map.mp hk
    exact (h m hm).1

/-- Strict data is encodable data without repeated names. -/
theorem strict_iff_encodable (v : Json) : v.Strict ↔ Encodable v ∧ v.UniqueKeys := by
  rw [Json.strict_iff_all]
  constructor
  · exact fun h ↦ ⟨h.imp (fun _ hs ↦ hs) (fun _ hx ↦ hx) fun _ hk ↦ hk.2,
      h.imp (fun _ _ ↦ trivial) (fun _ _ ↦ trivial) fun _ hk ↦ hk.1⟩
  · rintro ⟨he, hu⟩
    induction v using Json.induct with
    | null => trivial
    | bool b => trivial
    | num x => exact he
    | str s => exact he
    | arr items ih =>
      rw [encodable_arr] at he
      rw [Json.UniqueKeys, Json.all_arr] at hu
      rw [Json.all_arr]
      exact fun v hv ↦ ih v hv (he v hv) (hu v hv)
    | obj ms ih =>
      rw [Encodable, Json.all_obj] at he
      rw [Json.UniqueKeys, Json.all_obj] at hu
      rw [Json.all_obj]
      exact ⟨⟨hu.1, he.1⟩, fun m hm ↦ ih m hm (he.2 m hm) (hu.2 m hm)⟩

private theorem except_map_eq_ok {ε α β : Type} {r : Except ε α} {f : α → β} {b : β} :
    r.map f = .ok b ↔ ∃ a, r = .ok a ∧ b = f a := by
  cases r with
  | error e => simp [Except.map]
  | ok a => simp [Except.map, eq_comm]

private theorem canonicalizeItems_eq_ok {items : List Json}
    (h : ∀ v ∈ items, ∀ path t,
      canonicalize print path v = .ok t ↔ Encodable v ∧ t = canonicalText print v)
    (path : JsString) (index : Nat) {ts : List JsString} :
    collect (canonicalizeItems print path index items) = .ok ts ↔
      (∀ v ∈ items, Encodable v) ∧ ts = items.map (canonicalText print) := by
  rw [collect_eq_ok]
  induction items generalizing index ts with
  | nil => cases ts <;> simp [canonicalizeItems]
  | cons v rest ih =>
    have hv := h v (by simp) (elementPath path index)
    have hrest := @ih (fun w hw ↦ h w (by simp [hw])) (index + 1)
    cases ts with
    | nil => simp [canonicalizeItems]
    | cons t ts =>
      simp only [canonicalizeItems, List.map_cons, List.cons.injEq, List.forall_mem_cons, hv,
        hrest]
      grind

private theorem canonicalizeMember_eq_ok {m : JsString × Json} {t : JsString} (path : JsString)
    (h : ∀ path t,
      canonicalize print path m.2 = .ok t ↔ Encodable m.2 ∧ t = canonicalText print m.2) :
    memberResult path m.1 (canonicalize print (path ++ js "." ++ m.1) m.2) = .ok t ↔
      (wellFormed m.1 = true ∧ Encodable m.2) ∧ t = memberText print m := by
  have hs := assertValidUnicode_eq_ok (path ++ js " property") m.1
  rw [← hs, memberResult]
  cases assertValidUnicode (path ++ js " property") m.1 with
  | error message => simp
  | ok _ =>
    simp only [except_map_eq_ok, h, memberText]
    grind

/-- `canonicalize` yields the canonical text of encodable data and throws on other data. -/
theorem canonicalize_eq_ok_iff {path t : JsString} {v : Json} :
    canonicalize print path v = .ok t ↔ Encodable v ∧ t = canonicalText print v := by
  induction v using Json.induct generalizing path t with
  | null => simp [canonicalize, canonicalText, Encodable, Json.All, eq_comm]
  | bool b => cases b <;> simp [canonicalize, canonicalText, Encodable, Json.All, eq_comm]
  | num x =>
    cases hx : x.isFinite <;>
      simp [canonicalize, canonicalText, Encodable, Json.All, hx, eq_comm]
  | str s =>
    have hs := assertValidUnicode_eq_ok path s
    rw [canonicalize, canonicalText, Encodable, Json.All, ← hs]
    cases assertValidUnicode path s <;> simp [eq_comm]
  | arr items ih =>
    rw [canonicalize, except_map_eq_ok, encodable_arr, canonicalText, canonicalItems_eq_map]
    simp only [canonicalizeItems_eq_ok print fun v hv path t ↦ @ih v hv path t]
    grind
  | obj ms ih =>
    rw [canonicalize, except_map_eq_ok, encodable_obj, canonicalText_obj,
      canonicalizeMembers_eq_map, sortMembers_map, List.map_map]
    have hmem {m : JsString × Json} : m ∈ sortMembers ms ↔ m ∈ ms :=
      (Json.sortMembers_perm ms).mem_iff
    have hseq := collect_map_eq_ok (l := sortMembers ms)
      fun m hm t ↦ canonicalizeMember_eq_ok print path fun path' t' ↦
        @ih m (hmem.mp hm) path' t'
    simp only [Function.comp_def, hseq, hmem]
    grind

/-- The canonical bytes of encodable data are those of its canonical text. -/
theorem canonicalizeBytes_eq_ok_iff {v : Json} {bytes : List UInt8} :
    canonicalizeBytes print v = .ok bytes ↔
      Encodable v ∧ bytes = utf8 (canonicalText print v) := by
  rw [canonicalizeBytes, except_map_eq_ok]
  simp only [canonicalize_eq_ok_iff]
  grind

end

end TimeProofs.Json
