import TimeProofs.Base.Utf8
import TimeProofs.Json.Parse
import TimeProofs.Json.RoundTrip

/-!
# `JSON.stringify`

The printer of ECMAScript, `JSON.stringify(value, null, gap)`, and the files it fills: `readJson`
and `writeJsonAtomic`, `packages/relay/src/store.mjs:23–32`. An object's members are printed in the
order in which ECMAScript lists an object's own names, array indices first. What is printed is a
text of the grammar, so a file is read back as the data that was written.
-/

namespace TimeProofs.Json

open TimeProofs.Base TimeProofs.Core

/-- A name that is an array index: the decimal of a number below 2³² - 1. -/
def isArrayIndex (key : JsString) : Bool :=
  key ≠ [] && key.all isDigit && (key = [zeroDigit] || key.head? ≠ some zeroDigit) &&
    digitsValue key < 0xFFFFFFFF

/-- An object's own members as ECMAScript lists them: array indices by their number, then the
other names in the order in which they were set. -/
def ownOrder {β : Type} (ms : List (JsString × β)) : List (JsString × β) :=
  (ms.filter fun m ↦ isArrayIndex m.1).insertionSort
      (fun m n ↦ digitsValue m.1 ≤ digitsValue n.1) ++
    ms.filter fun m ↦ !isArrayIndex m.1

theorem ownOrder_perm {β : Type} (ms : List (JsString × β)) : (ownOrder ms).Perm ms :=
  ((List.perm_insertionSort _ _).append_right _).trans (List.filter_append_perm _ ms)

theorem ownOrder_map {β γ : Type} (f : JsString × β → γ) (ms : List (JsString × β)) :
    ownOrder (ms.map fun m ↦ (m.1, f m)) = (ownOrder ms).map fun m ↦ (m.1, f m) := by
  rw [ownOrder, ownOrder, List.map_append, List.filter_map, List.filter_map]
  refine congrArg (· ++ _) ?_
  exact (List.map_insertionSort (fun m n : JsString × β ↦ digitsValue m.1 ≤ digitsValue n.1)
    (fun m n : JsString × γ ↦ digitsValue m.1 ≤ digitsValue n.1) (fun m ↦ (m.1, f m)) _
    fun _ _ _ _ ↦ Iff.rfl).symm

mutual

/-- The data with every object's members in the order in which ECMAScript lists them. -/
def ownOrdered : Json → Json
  | .arr items => .arr (ownOrderedItems items)
  | .obj members => .obj (ownOrder (ownOrderedMembers members))
  | v => v

/-- `ownOrdered` of every array element. -/
def ownOrderedItems : List Json → List Json
  | [] => []
  | v :: rest => ownOrdered v :: ownOrderedItems rest

/-- `ownOrdered` of every member's value. -/
def ownOrderedMembers : Members → Members
  | [] => []
  | (key, v) :: rest => (key, ownOrdered v) :: ownOrderedMembers rest

end

/-- The start of a new line, when the text is indented. -/
def lineBreak (gap indent : JsString) : JsString := if gap = [] then [] else 0x0A :: indent

/-- The texts of elements or members between brackets. -/
def enclosed (gap indent : JsString) (first last : CodeUnit) (texts : List JsString) : JsString :=
  if texts = [] then [first, last]
  else first :: (lineBreak gap (indent ++ gap) ++
    List.intercalate (valueSeparator :: lineBreak gap (indent ++ gap)) texts ++
      lineBreak gap indent ++ [last])

/-- The text of a member whose value has the given text. -/
def memberLine (gap key text : JsString) : JsString :=
  quoteJson key ++ nameSeparator :: ((if gap = [] then [] else [0x20]) ++ text)

section

variable (print : Float → JsString) (gap : JsString)

mutual

/-- A value's text, in lines that start with `indent`. -/
def serialize (indent : JsString) : Json → JsString
  | .null => js "null"
  | .bool b => if b then js "true" else js "false"
  | .num x => if x.isFinite then print x else js "null"
  | .str s => quoteJson s
  | .arr items => enclosed gap indent beginArray endArray (serializeItems (indent ++ gap) items)
  | .obj members => enclosed gap indent beginObject endObject
      ((ownOrder (serializeMembers (indent ++ gap) members)).map Prod.snd)

/-- The texts of array elements. -/
def serializeItems (indent : JsString) : List Json → List JsString
  | [] => []
  | v :: rest => serialize indent v :: serializeItems indent rest

/-- The texts of members, each with its name. -/
def serializeMembers (indent : JsString) : Members → List (JsString × JsString)
  | [] => []
  | (key, v) :: rest =>
    (key, memberLine gap key (serialize indent v)) :: serializeMembers indent rest

end

/-- `JSON.stringify(v, null, gap)`; without a gap the text is one line. -/
def stringify (v : Json) : JsString := serialize print gap [] v

end

/-- The text of a file, `store.mjs:30`. -/
def fileText (print : Float → JsString) (v : Json) : JsString :=
  stringify print (js "  ") v ++ [0x0A]

/-- The bytes that `writeJsonAtomic` writes, `store.mjs:27–32`. -/
def writeJson (print : Float → JsString) (v : Json) : List UInt8 := utf8 (fileText print v)

/-- `readJson`, `store.mjs:23–25`. -/
def readJson (bytes : List UInt8) : Option Json := parse (decodeUtf8 bytes)

theorem hexDigitValue_hexLower {n : Nat} (h : n < 16) : hexDigitValue (hexLower n) = n :=
  (by decide : ∀ n : Fin 16, hexDigitValue (hexLower n) = n) ⟨n, h⟩

theorem isHexDigit_hexLower_of_lt {n : Nat} (h : n < 16) : isHexDigit (hexLower n) = true :=
  (by decide : ∀ n : Fin 16, isHexDigit (hexLower n) = true) ⟨n, h⟩

/-- The escape of a code unit spells it. -/
theorem hexUnit_hexLower (c : CodeUnit) :
    hexUnit (hexLower (c.toNat / 4096)) (hexLower (c.toNat / 256 % 16))
      (hexLower (c.toNat / 16 % 16)) (hexLower (c.toNat % 16)) = c := by
  have hlt : c.toNat < 65536 := c.toNat_lt
  have hsum : 4096 * (c.toNat / 4096) + 256 * (c.toNat / 256 % 16) + 16 * (c.toNat / 16 % 16) +
      c.toNat % 16 = c.toNat := by omega
  rw [hexUnit, hexDigitValue_hexLower (by omega), hexDigitValue_hexLower (by omega),
    hexDigitValue_hexLower (by omega), hexDigitValue_hexLower (by omega), hsum, UInt16.ofNat_toNat]

section

variable {s d t : JsString} {c : CodeUnit}

/-- What a code unit is printed as is read as the code unit. -/
theorem chars_quoteUnit_any (h : Chars s d t) : Chars (quoteUnit c ++ s) (c :: d) t := by
  have simple (e : CodeUnit) {c : CodeUnit} (he : simpleEscape e = some c) :
      Chars ([backslash, e] ++ s) (c :: d) t := .simple he h
  have hlt : c.toNat < 65536 := c.toNat_lt
  unfold quoteUnit
  split
  · next hc => exact hc ▸ simple quotationMark rfl
  split
  · next hc => exact hc ▸ simple backslash rfl
  split
  · next hc => exact hc ▸ simple 0x62 rfl
  split
  · next hc => exact hc ▸ simple 0x74 rfl
  split
  · next hc => exact hc ▸ simple 0x6E rfl
  split
  · next hc => exact hc ▸ simple 0x66 rfl
  split
  · next hc => exact hc ▸ simple 0x72 rfl
  split
  · have hdigit (n : Nat) : isHexDigit (hexLower (n % 16)) = true :=
      isHexDigit_hexLower_of_lt (Nat.mod_lt n (by decide))
    have hescape := Chars.unicode (isHexDigit_hexLower_of_lt (n := c.toNat / 4096) (by omega))
      (hdigit (c.toNat / 256)) (hdigit (c.toNat / 16)) (hdigit c.toNat) h
    rwa [hexUnit_hexLower] at hescape
  · next hq hb _ _ _ _ _ hc =>
    simp only [Bool.or_eq_true, decide_eq_true_eq, not_or, Nat.not_lt] at hc
    exact .unescaped hc.1.1 hq hb h

/-- A surrogate is read as it stands. -/
theorem chars_surrogate (hc : 0xD800 ≤ c.toNat) (h : Chars s d t) : Chars (c :: s) (c :: d) t := by
  have ne (d : CodeUnit) (hd : d.toNat < 0xD800) : c ≠ d := by
    rintro rfl
    omega
  exact .unescaped (by omega) (ne _ (by decide)) (ne _ (by decide)) h

/-- What stands between the quotation marks decodes to the string, whatever it holds. -/
theorem chars_quoteUnits_any (s t : JsString) : Chars (quoteUnits s ++ quotationMark :: t) s t := by
  fun_induction quoteUnits s with
  | case1 => exact .close t
  | case2 c => exact chars_quoteUnit_any (.close t)
  | case3 c next rest hpair ih =>
    rw [Bool.and_eq_true] at hpair
    have hc := (isHighSurrogate_iff c).mp hpair.1
    have hnext := (isLowSurrogate_iff next).mp hpair.2
    exact chars_surrogate (by omega) (chars_surrogate (by omega) ih)
  | case4 c next rest hpair ih =>
    rw [List.append_assoc]
    exact chars_quoteUnit_any ih

/-- What a code unit is printed as is well formed. -/
theorem wellFormed_quoteUnit_any (c : CodeUnit) : wellFormed (quoteUnit c) = true := by
  have hhex (n : Nat) (hn : n < 16) : (hexLower n).toNat < 0xD800 :=
    (by decide : ∀ n : Fin 16, (hexLower n).toNat < 0xD800) ⟨n, hn⟩
  have hlt : c.toNat < 65536 := c.toNat_lt
  unfold quoteUnit
  split_ifs with _ _ _ _ _ _ _ hc
  any_goals decide
  · refine wellFormed_of_forall ?_
    simp only [List.mem_cons, List.not_mem_nil, or_false]
    rintro d (rfl | rfl | rfl | rfl | rfl | rfl)
    · decide
    · decide
    · exact hhex _ (by omega)
    · exact hhex _ (by omega)
    · exact hhex _ (by omega)
    · exact hhex _ (by omega)
  · simp only [Bool.or_eq_true, not_or, Bool.not_eq_true] at hc
    simp [wellFormed, hc.1.2, hc.2]

/-- What is printed between the quotation marks is well formed, whatever the string holds. -/
theorem wellFormed_quoteUnits_any (s : JsString) : wellFormed (quoteUnits s) = true := by
  fun_induction quoteUnits s with
  | case1 => rfl
  | case2 c => exact wellFormed_quoteUnit_any c
  | case3 c next rest hpair ih =>
    rw [Bool.and_eq_true] at hpair
    rwa [wellFormed_cons_pair hpair.1 hpair.2]
  | case4 c next rest hpair ih => exact wellFormed_append (wellFormed_quoteUnit_any c) ih

theorem wellFormed_quoteJson_any (s : JsString) : wellFormed (quoteJson s) = true := by
  rw [quoteJson, wellFormed_cons_of_lt (by decide)]
  exact wellFormed_append (wellFormed_quoteUnits_any s) (by decide)

end

/-! ### The printed text in the grammar -/

theorem ownOrderedItems_eq_map (items : List Json) :
    ownOrderedItems items = items.map ownOrdered := by
  induction items with
  | nil => rfl
  | cons v rest ih => rw [ownOrderedItems, ih, List.map_cons]

theorem ownOrderedMembers_eq_map (ms : Members) :
    ownOrderedMembers ms = ms.map fun m ↦ (m.1, ownOrdered m.2) := by
  induction ms with
  | nil => rfl
  | cons m rest ih => rw [ownOrderedMembers, ih, List.map_cons]

theorem ownOrdered_arr (items : List Json) :
    ownOrdered (.arr items) = .arr (items.map ownOrdered) := by
  rw [ownOrdered, ownOrderedItems_eq_map]

theorem ownOrdered_obj (ms : Members) :
    ownOrdered (.obj ms) = .obj ((ownOrder ms).map fun m ↦ (m.1, ownOrdered m.2)) := by
  rw [ownOrdered, ownOrderedMembers_eq_map, ownOrder_map fun m : JsString × Json ↦ ownOrdered m.2]

section

variable {print : Float → JsString} {gap indent : JsString}

theorem serializeItems_eq_map (items : List Json) :
    serializeItems print gap indent items = items.map (serialize print gap indent) := by
  induction items with
  | nil => rfl
  | cons v rest ih => rw [serializeItems, ih, List.map_cons]

theorem serializeMembers_eq_map (ms : Members) : serializeMembers print gap indent ms =
    ms.map fun m ↦ (m.1, memberLine gap m.1 (serialize print gap indent m.2)) := by
  induction ms with
  | nil => rfl
  | cons m rest ih => rw [serializeMembers, ih, List.map_cons]

theorem serialize_arr (items : List Json) : serialize print gap indent (.arr items) =
    enclosed gap indent beginArray endArray (items.map (serialize print gap (indent ++ gap))) := by
  rw [serialize, serializeItems_eq_map]

theorem serialize_obj (ms : Members) : serialize print gap indent (.obj ms) =
    enclosed gap indent beginObject endObject ((ownOrder ms).map fun m ↦
      memberLine gap m.1 (serialize print gap (indent ++ gap) m.2)) := by
  rw [serialize, serializeMembers_eq_map, ownOrder_map
    fun m : JsString × Json ↦ memberLine gap m.1 (serialize print gap (indent ++ gap) m.2),
    List.map_map]
  rfl

/-- Text of whitespace. -/
def Blank (s : JsString) : Prop := ∀ c ∈ s, isWhitespace c = true

theorem Blank.ws {s : JsString} (h : Blank s) (t : JsString) : Ws (s ++ t) t := by
  induction s with
  | nil => exact .nil t
  | cons c s ih => exact .cons (h c (by simp)) (ih fun d hd ↦ h d (by simp [hd]))

theorem blank_lineBreak (h : Blank indent) : Blank (lineBreak gap indent) := by
  unfold lineBreak
  split
  · simp [Blank]
  · exact List.forall_mem_cons.mpr ⟨by decide, h⟩

theorem blank_append {s t : JsString} (hs : Blank s) (ht : Blank t) : Blank (s ++ t) :=
  List.forall_mem_append.mpr ⟨hs, ht⟩

/-- Elements between separators and line breaks. -/
theorem elements_intercalate_lines (text : Json → JsString) (data : Json → Json)
    {line last : JsString} (hline : Blank line) (hlast : Blank last) (t : JsString)
    {items : List Json} (hne : items ≠ [])
    (h : ∀ v ∈ items, ∀ u, Value (text v ++ u) (data v) u) :
    Elements (List.intercalate (valueSeparator :: line) (items.map text) ++
      (last ++ endArray :: t)) (items.map data) t := by
  induction items with
  | nil => exact absurd rfl hne
  | cons v rest ih =>
    cases rest with
    | nil =>
      rw [List.map_singleton, List.intercalate_singleton]
      exact .last (h v (by simp) _) (hlast.ws _)
    | cons w rest =>
      have hrest := ih (by simp) fun z hz ↦ h z (List.mem_cons_of_mem v hz)
      rw [List.map_cons, List.map_cons, List.intercalate_cons_cons, List.append_assoc,
        List.append_assoc]
      exact .more (h v (by simp) _) (.nil _) (hline.ws _) hrest

/-- Members between separators and line breaks. -/
theorem memberList_intercalate_lines (text : Json → JsString) (data : Json → Json)
    {line last : JsString} (hline : Blank line) (hlast : Blank last) (t : JsString)
    {ms : Members} (hne : ms ≠ []) (h : ∀ m ∈ ms, ∀ u, Value (text m.2 ++ u) (data m.2) u) :
    MemberList (List.intercalate (valueSeparator :: line)
      (ms.map fun m ↦ memberLine gap m.1 (text m.2)) ++ (last ++ endObject :: t))
      (ms.map fun m ↦ (m.1, data m.2)) t := by
  have hspace : Blank (if gap = [] then [] else [0x20]) := by
    split
    · simp [Blank]
    · simp [Blank, isWhitespace]
  have split (m : JsString × Json) (u : JsString) : memberLine gap m.1 (text m.2) ++ u =
      quotationMark :: (quoteUnits m.1 ++ quotationMark ::
        (nameSeparator :: ((if gap = [] then [] else [0x20]) ++ (text m.2 ++ u)))) := by
    simp [memberLine, quoteJson]
  induction ms with
  | nil => exact absurd rfl hne
  | cons m rest ih =>
    have hm := h m (by simp)
    cases rest with
    | nil =>
      rw [List.map_singleton, List.intercalate_singleton, split]
      exact .last (chars_quoteUnits_any _ _) (.nil _) (hspace.ws _) (hm _) (hlast.ws _)
    | cons n rest =>
      have hrest := ih (by simp) fun z hz ↦ h z (List.mem_cons_of_mem m hz)
      rw [List.map_cons, List.map_cons, List.intercalate_cons_cons, List.append_assoc,
        List.append_assoc, split]
      exact .more (chars_quoteUnits_any _ _) (.nil _) (hspace.ws _) (hm _) (.nil _) (hline.ws _)
        hrest

/-- Every finite number in a value prints back. -/
def FinitePrintBack (print : Float → JsString) : Json → Prop :=
  Json.All (fun _ ↦ True) (fun x ↦ x.isFinite = true → PrintsBack print x) (fun _ ↦ True)

theorem finitePrintBack_arr (items : List Json) :
    FinitePrintBack print (.arr items) ↔ ∀ v ∈ items, FinitePrintBack print v :=
  Json.all_arr items

theorem finitePrintBack_obj (ms : Members) :
    FinitePrintBack print (.obj ms) ↔ ∀ m ∈ ms, FinitePrintBack print m.2 := by
  rw [FinitePrintBack, Json.all_obj]
  exact and_iff_right trivial

/-- The printed text denotes a clone of the value, its members in the order in which ECMAScript
lists them. -/
theorem value_serialize (hgap : Blank gap) {v : Json} (hp : FinitePrintBack print v)
    (hindent : Blank indent) (t : JsString) :
    Value (serialize print gap indent v ++ t) (ownOrdered (clone v)) t := by
  induction v using Json.induct generalizing indent t with
  | null => exact .nullLiteral t
  | bool b =>
    cases b with
    | true => exact .trueLiteral t
    | false => exact .falseLiteral t
  | num x =>
    rw [serialize, clone]
    split
    · next hx =>
      have hx : PrintsBack print x := hp hx
      have hnumber := Value.number t hx.token
      rwa [hx.reads] at hnumber
    · exact .nullLiteral t
  | str s =>
    rw [serialize, quoteJson, List.cons_append, List.append_assoc, clone_str]
    exact .string (chars_quoteUnits_any s t)
  | arr items ih =>
    rw [finitePrintBack_arr] at hp
    rw [serialize_arr, clone_arr, ownOrdered_arr, List.map_map]
    have hinner := blank_append hindent hgap
    cases items with
    | nil => exact .emptyArray (.nil _)
    | cons v rest =>
      rw [enclosed, if_neg (by simp), List.cons_append, List.append_assoc, List.append_assoc,
        List.append_assoc]
      refine .array ((blank_lineBreak hinner).ws _) ?_
      exact elements_intercalate_lines _ _ (blank_lineBreak hinner) (blank_lineBreak hindent) t
        (by simp) fun w hw u ↦ ih w hw (hp w hw) hinner u
  | obj ms ih =>
    rw [finitePrintBack_obj] at hp
    rw [serialize_obj, clone_obj, ownOrdered_obj, ownOrder_map fun m : JsString × Json ↦ clone m.2,
      List.map_map]
    have hinner := blank_append hindent hgap
    have hmem {m : JsString × Json} (hm : m ∈ ownOrder ms) : m ∈ ms :=
      (ownOrder_perm ms).mem_iff.mp hm
    cases hs : ownOrder ms with
    | nil => exact .emptyObject (.nil _)
    | cons m rest =>
      rw [enclosed, if_neg (by simp), List.cons_append, List.append_assoc, List.append_assoc,
        List.append_assoc, ← hs]
      refine .object ((blank_lineBreak hinner).ws _) ?_
      exact memberList_intercalate_lines (serialize print gap (indent ++ gap))
        (fun v ↦ ownOrdered (clone v)) (blank_lineBreak hinner) (blank_lineBreak hindent) t
        (by simp [hs]) fun n hn u ↦ ih n (hmem hn) (hp n (hmem hn)) hinner u

theorem Blank.wellFormed_append {s : JsString} (h : Blank s) (t : JsString) :
    wellFormed (s ++ t) = wellFormed t :=
  (h.ws t).wellFormed_eq

theorem wellFormed_intercalate_lines {line : JsString} (hline : Blank line)
    {texts : List JsString} (h : ∀ t ∈ texts, wellFormed t = true) :
    wellFormed (List.intercalate (valueSeparator :: line) texts) = true := by
  induction texts with
  | nil => rfl
  | cons a rest ih =>
    have ha := h a (by simp)
    cases rest with
    | nil => rwa [List.intercalate_singleton]
    | cons b rest =>
      have hrest := ih fun t ht ↦ h t (List.mem_cons_of_mem a ht)
      rw [List.intercalate_cons_cons, List.append_assoc]
      refine TimeProofs.Base.wellFormed_append ha ?_
      rwa [List.cons_append, wellFormed_cons_of_lt (by decide), hline.wellFormed_append]

theorem wellFormed_enclosed (hgap : Blank gap) (hindent : Blank indent) {first last : CodeUnit}
    (hfirst : first.toNat < 0xD800) (hlast : last.toNat < 0xD800) {texts : List JsString}
    (h : ∀ t ∈ texts, wellFormed t = true) :
    wellFormed (enclosed gap indent first last texts) = true := by
  have hinner : Blank (lineBreak gap (indent ++ gap)) :=
    blank_lineBreak (blank_append hindent hgap)
  unfold enclosed
  split
  · rw [wellFormed_cons_of_lt hfirst, wellFormed_cons_of_lt hlast]
    rfl
  · rw [wellFormed_cons_of_lt hfirst, List.append_assoc, List.append_assoc,
      hinner.wellFormed_append]
    refine TimeProofs.Base.wellFormed_append (wellFormed_intercalate_lines hinner h) ?_
    rw [(blank_lineBreak hindent).wellFormed_append, wellFormed_cons_of_lt hlast]
    rfl

theorem wellFormed_memberLine {key text : JsString} (h : wellFormed text = true) :
    wellFormed (memberLine gap key text) = true := by
  refine TimeProofs.Base.wellFormed_append (wellFormed_quoteJson_any key) ?_
  rw [wellFormed_cons_of_lt (by decide)]
  split
  · exact h
  · rwa [List.singleton_append, wellFormed_cons_of_lt (by decide)]

/-- The printed text is well formed, whatever the strings hold. -/
theorem wellFormed_serialize (hgap : Blank gap) {v : Json} (hp : FinitePrintBack print v)
    (hindent : Blank indent) : wellFormed (serialize print gap indent v) = true := by
  induction v using Json.induct generalizing indent with
  | null => exact (by decide : wellFormed (js "null") = true)
  | bool b =>
    cases b with
    | true => exact (by decide : wellFormed (js "true") = true)
    | false => exact (by decide : wellFormed (js "false") = true)
  | num x =>
    rw [serialize]
    split
    · next hx => exact wellFormed_of_forall (PrintsBack.token (hp hx)).lt
    · decide
  | str s => exact wellFormed_quoteJson_any s
  | arr items ih =>
    rw [finitePrintBack_arr] at hp
    rw [serialize_arr]
    refine wellFormed_enclosed hgap hindent (by decide) (by decide) ?_
    intro t ht
    obtain ⟨v, hv, rfl⟩ := List.mem_map.mp ht
    exact ih v hv (hp v hv) (blank_append hindent hgap)
  | obj ms ih =>
    rw [finitePrintBack_obj] at hp
    rw [serialize_obj]
    refine wellFormed_enclosed hgap hindent (by decide) (by decide) ?_
    intro t ht
    obtain ⟨m, hm, rfl⟩ := List.mem_map.mp ht
    have hm := (ownOrder_perm ms).mem_iff.mp hm
    exact wellFormed_memberLine (ih m hm (hp m hm) (blank_append hindent hgap))

end

section

variable {print : Float → JsString} {v : Json}

theorem blank_gap : Blank (js "  ") := List.all_eq_true.mp (by decide)

theorem wellFormed_fileText (hp : FinitePrintBack print v) :
    wellFormed (fileText print v) = true :=
  wellFormed_append (wellFormed_serialize blank_gap hp (by simp [Blank])) (by decide)

/-- The text of a file denotes what was written. -/
theorem isText_fileText (hp : FinitePrintBack print v) :
    IsText (fileText print v) (ownOrdered (clone v)) :=
  ⟨_, [0x0A], .nil _, value_serialize blank_gap hp (by simp [Blank]) _, .cons (by decide) (.nil _)⟩

theorem all_trivial (v : Json) : Json.All (fun _ ↦ True) (fun _ ↦ True) (fun _ ↦ True) v := by
  induction v using Json.induct with
  | arr items ih => exact (Json.all_arr items).mpr ih
  | obj ms ih => exact (Json.all_obj ms).mpr ⟨trivial, ih⟩
  | _ => trivial

/-- What holds of the parts of a clone, whose numbers are finite, holds of those of the value. -/
theorem all_clone {S : JsString → Prop} {N : Float → Prop} {K : List JsString → Prop}
    (hN : ∀ x : Float, x.isFinite = true → N (dropZeroSign x)) (v : Json) :
    Json.All S N K (clone v) ↔ Json.All S (fun _ ↦ True) K v := by
  induction v using Json.induct with
  | num x =>
    rw [clone]
    split
    · next hx => exact iff_of_true (hN x hx) trivial
    · exact Iff.rfl
  | arr items ih =>
    rw [clone_arr, Json.all_arr, Json.all_arr, List.forall_mem_map]
    exact forall₂_congr ih
  | obj ms ih =>
    rw [clone_obj, Json.all_obj, Json.all_obj, List.map_map, List.forall_mem_map]
    exact and_congr_right fun _ ↦ forall₂_congr ih
  | _ =>
    rw [clone]
    exact Iff.rfl

/-- What holds of the parts of a value holds of them in their own order. -/
theorem all_ownOrdered {S : JsString → Prop} {N : Float → Prop} {K : List JsString → Prop}
    (hK : ∀ ks ks', ks.Perm ks' → (K ks ↔ K ks')) (v : Json) :
    Json.All S N K (ownOrdered v) ↔ Json.All S N K v := by
  induction v using Json.induct with
  | arr items ih =>
    rw [ownOrdered_arr, Json.all_arr, Json.all_arr, List.forall_mem_map]
    exact forall₂_congr ih
  | obj ms ih =>
    rw [ownOrdered_obj, Json.all_obj, Json.all_obj, List.map_map, List.forall_mem_map]
    refine and_congr (hK _ _ ((ownOrder_perm ms).map Prod.fst)) ?_
    simp only [(ownOrder_perm ms).mem_iff]
    exact forall₂_congr ih
  | _ => exact Iff.rfl

theorem uniqueKeys_clone : (clone v).UniqueKeys ↔ v.UniqueKeys := all_clone (fun _ _ ↦ trivial) v

theorem uniqueKeys_ownOrdered_clone : (ownOrdered (clone v)).UniqueKeys ↔ v.UniqueKeys :=
  (all_ownOrdered (fun _ _ h ↦ h.nodup_iff) _).trans uniqueKeys_clone

/-- A clone in its own order is strict exactly when the strings are well formed and no name is
repeated. -/
theorem strict_ownOrdered_clone :
    (ownOrdered (clone v)).Strict ↔ v.WellFormedText ∧ v.UniqueKeys := by
  have htext : (ownOrdered (clone v)).WellFormedText ↔ v.WellFormedText := by
    refine (all_ownOrdered (fun ks ks' h ↦ ?_) _).trans (all_clone (fun _ _ ↦ trivial) v)
    simp only [h.mem_iff]
  have hfinite : (ownOrdered (clone v)).FiniteNumbers :=
    (all_ownOrdered (fun _ _ _ ↦ Iff.rfl) _).mpr
      ((all_clone (fun _ hx ↦ isFinite_dropZeroSign hx) v).mpr (all_trivial v))
  exact ⟨fun h ↦ ⟨htext.mp h.text, uniqueKeys_ownOrdered_clone.mp h.unique⟩,
    fun h ↦ ⟨htext.mpr h.1, hfinite, uniqueKeys_ownOrdered_clone.mpr h.2⟩⟩

/-- The order in which members are listed is no part of the data. -/
theorem normal_ownOrdered (h : v.UniqueKeys) : (ownOrdered v).normal = v.normal := by
  induction v using Json.induct with
  | arr items ih =>
    rw [Json.UniqueKeys, Json.all_arr] at h
    rw [ownOrdered_arr, Json.normal, Json.normal, Json.normalItems_eq_map, Json.normalItems_eq_map,
      List.map_map]
    exact congrArg Json.arr (List.map_congr_left fun v hv ↦ ih v hv (h v hv))
  | obj ms ih =>
    rw [Json.UniqueKeys, Json.all_obj] at h
    have hsort : sortMembers (ownOrder ms) = sortMembers ms :=
      (Json.sortMembers_eq_of_perm h.1 (ownOrder_perm ms).symm).symm
    rw [ownOrdered_obj, normal_obj, normal_obj,
      sortMembers_map fun m : JsString × Json ↦ ownOrdered m.2, hsort, List.map_map]
    refine congrArg Json.obj (List.map_congr_left fun m hm ↦ ?_)
    have hm := (Json.sortMembers_perm ms).mem_iff.mp hm
    exact congrArg (Prod.mk m.1) (ih m hm (h.2 m hm))
  | _ => rfl

/-! ### What is written is read back -/

/-- What has been printed is parsed again, with or without line breaks. -/
theorem parse_stringify {gap : JsString} (hgap : Blank gap) (hunique : v.UniqueKeys)
    (hp : FinitePrintBack print v) :
    parse (stringify print gap v) = some (ownOrdered (clone v)) := by
  have hvalue : Value (stringify print gap v ++ []) (ownOrdered (clone v)) [] :=
    value_serialize hgap hp (by simp [Blank]) []
  rw [List.append_nil] at hvalue
  have htext : IsText (stringify print gap v) (ownOrdered (clone v)) :=
    ⟨_, [], .nil _, hvalue, .nil _⟩
  exact parse_of_unique htext (uniqueKeys_ownOrdered_clone.mpr hunique)

theorem parse_fileText (hunique : v.UniqueKeys) (hp : FinitePrintBack print v) :
    parse (fileText print v) = some (ownOrdered (clone v)) :=
  parse_of_unique (isText_fileText hp) (uniqueKeys_ownOrdered_clone.mpr hunique)

/-- A file that has been written is read back: what `readJson` returns is a clone of the value, as
`clone` makes it through a text in one line, with the members of every object in the order in which
ECMAScript lists them and whatever the strings hold. It is the same data. -/
theorem written_json_is_read_back (print : Float → JsString) (v : Json) (hunique : v.UniqueKeys)
    (hp : FinitePrintBack print v) :
    readJson (writeJson print v) = some (ownOrdered (clone v)) ∧
      parse (stringify print [] v) = some (ownOrdered (clone v)) ∧
      (ownOrdered (clone v)).Same (clone v) := by
  have hkeys := uniqueKeys_ownOrdered_clone.mpr hunique
  refine ⟨?_, parse_stringify (by simp [Blank]) hunique hp, ?_⟩
  · rw [readJson, writeJson, decodeUtf8_utf8 (wellFormed_fileText hp)]
    exact parse_fileText hunique hp
  · rw [Json.same_iff_normal hkeys]
    exact normal_ownOrdered (uniqueKeys_clone.mpr hunique)

/-- Data with a lone surrogate and a name that is an array index. -/
def unpairedData : Json :=
  .obj [(js "b", .arr [.num (numberOf (js "1")), .str [0xD800]]), (js "1", .null)]

theorem uniqueKeys_unpairedData : unpairedData.UniqueKeys := by
  unfold unpairedData Json.UniqueKeys
  decide

/-- A printer that is right about the numbers of the data. -/
theorem finitePrintBack_unpairedData : FinitePrintBack (fun _ ↦ js "1") unpairedData := by
  have hdigit : IsInt (js "1") := .digits 0x31 [] rfl (by decide) (by simp)
  have hone : PrintsBack (fun _ ↦ js "1") (numberOf (js "1")) :=
    ⟨.positive (js "1") [] [] hdigit .absent .absent, by decide, rfl⟩
  unfold unpairedData FinitePrintBack
  exact ⟨trivial, ⟨fun _ ↦ hone, trivial, trivial⟩, trivial, trivial⟩

/-- The name `1` is listed first, and the surrogate is kept. -/
theorem written_json_is_read_back_surrogate :
    readJson (writeJson (fun _ ↦ js "1") unpairedData) =
      some (.obj [(js "1", .null), (js "b", .arr [.num (numberOf (js "1")), .str [0xD800]])]) := by
  have hread := (written_json_is_read_back (fun _ ↦ js "1") unpairedData uniqueKeys_unpairedData
    finitePrintBack_unpairedData).1
  rw [hread]
  rfl

/-- The strict parser accepts the text of such a file exactly when all its strings are well formed,
and then returns what `JSON.parse` returns. -/
theorem written_json_is_strict_iff (print : Float → JsString) (v w : Json)
    (hunique : v.UniqueKeys) (hp : FinitePrintBack print v) :
    parseJsonStrict (fileText print v) = .ok w ↔
      v.WellFormedText ∧ w = ownOrdered (clone v) := by
  have hwell := wellFormed_fileText hp
  have htext := isText_fileText hp
  have hread := parse_fileText hunique hp
  rw [parseJsonStrict_ok_iff]
  constructor
  · rintro ⟨-, hw, hstrict⟩
    have hread' := parse_of_unique hw hstrict.unique
    obtain rfl := Option.some.inj (hread'.symm.trans hread)
    exact ⟨(strict_ownOrdered_clone.mp hstrict).1, rfl⟩
  · rintro ⟨hv, rfl⟩
    exact ⟨hwell, htext, strict_ownOrdered_clone.mpr ⟨hv, hunique⟩⟩

/-- With a lone surrogate `JSON.parse` reads the file and the strict parser refuses it. -/
theorem written_json_is_strict_iff_surrogate :
    (∃ w, parse (fileText (fun _ ↦ js "1") unpairedData) = some w) ∧
      ¬∃ w, parseJsonStrict (fileText (fun _ ↦ js "1") unpairedData) = .ok w := by
  constructor
  · exact ⟨_, parse_fileText uniqueKeys_unpairedData finitePrintBack_unpairedData⟩
  · rintro ⟨w, h⟩
    have hrefused : ¬unpairedData.WellFormedText := by
      unfold unpairedData Json.WellFormedText
      decide
    exact hrefused ((written_json_is_strict_iff (fun _ ↦ js "1") unpairedData w
      uniqueKeys_unpairedData finitePrintBack_unpairedData).mp h).1

/-- Where the strict parser returns a value `JSON.parse` returns it too; where only `JSON.parse`
does, the text is not well formed or what it denotes is not strict. -/
theorem parsers_agree (text : JsString) (v : Json) : parseJsonStrict text = .ok v ↔
    parse text = some v ∧ wellFormed text = true ∧ ∃ w, IsText text w ∧ w.Strict := by
  rw [parseJsonStrict_ok_iff]
  constructor
  · rintro ⟨hwell, htext, hstrict⟩
    exact ⟨parse_of_unique htext hstrict.unique, hwell, v, htext, hstrict⟩
  · rintro ⟨hread, hwell, w, htext, hstrict⟩
    have hread' := parse_of_unique htext hstrict.unique
    obtain rfl := Option.some.inj (hread'.symm.trans hread)
    exact ⟨hwell, htext, hstrict⟩

end

end TimeProofs.Json
