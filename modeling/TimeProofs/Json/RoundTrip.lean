import TimeProofs.Json.Canonicalize

/-!
# Canonical text is a canonical form

The canonical text of strict data is a well-formed text of the grammar and denotes the data's
representative, so the strict parser reads the data back and equal canonical texts mean equal
data up to member order.
-/

namespace TimeProofs.Json

open TimeProofs.Base

private theorem quoteUnits_plain {c : CodeUnit} (hh : isHighSurrogate c = false)
    (rest : JsString) : quoteUnits (c :: rest) = quoteUnit c ++ quoteUnits rest := by
  cases rest <;> simp [quoteUnits, hh]

private theorem quoteUnits_pair {c next : CodeUnit} (hh : isHighSurrogate c = true)
    (hl : isLowSurrogate next = true) (rest : JsString) :
    quoteUnits (c :: next :: rest) = c :: next :: quoteUnits rest := by
  simp [quoteUnits, hh, hl]

/-- The escape of a control character spells it. -/
private theorem hexUnit_control : ∀ n : Fin 32,
    hexUnit (hexLower (n / 4096)) (hexLower (n / 256 % 16)) (hexLower (n / 16 % 16))
      (hexLower (n % 16)) = UInt16.ofNat n := by decide

private theorem isHexDigit_hexLower : ∀ n : Fin 16, isHexDigit (hexLower n) = true := by
  decide

private theorem isHexDigit_mod (n : Nat) : isHexDigit (hexLower (n % 16)) = true :=
  isHexDigit_hexLower ⟨n % 16, Nat.mod_lt n (by decide)⟩

private theorem chars_quoteUnit {c : CodeUnit} (hh : isHighSurrogate c = false)
    (hl : isLowSurrogate c = false) {s d t : JsString} (h : Chars s d t) :
    Chars (quoteUnit c ++ s) (c :: d) t := by
  have simple (e : CodeUnit) {c : CodeUnit} (he : simpleEscape e = some c) :
      Chars ([backslash, e] ++ s) (c :: d) t := .simple he h
  unfold quoteUnit
  split
  · next hc => exact hc ▸ simple quotationMark rfl
  split
  · next hc => exact hc ▸ simple backslash rfl
  split
  · next hc => exact hc ▸ simple 0x62 rfl
  split
  · next hc => exact hc ▸ simple 0x74 rfl
  split
  · next hc => exact hc ▸ simple 0x6E rfl
  split
  · next hc => exact hc ▸ simple 0x66 rfl
  split
  · next hc => exact hc ▸ simple 0x72 rfl
  split
  · next hc =>
    simp only [hh, hl, Bool.or_false, decide_eq_true_eq] at hc
    have hx := hexUnit_control ⟨c.toNat, hc⟩
    rw [UInt16.ofNat_toNat] at hx
    have h0 : c.toNat / 4096 = 0 := by omega
    have hfirst : isHexDigit (hexLower (c.toNat / 4096)) = true := by
      rw [h0]
      decide
    have := Chars.unicode hfirst (isHexDigit_mod (c.toNat / 256)) (isHexDigit_mod (c.toNat / 16))
      (isHexDigit_mod c.toNat) h
    rwa [hx] at this
  · next hq hb _ _ _ _ _ hc =>
    simp only [hh, hl, Bool.or_false, decide_eq_true_eq, Nat.not_lt] at hc
    exact .unescaped hc hq hb h

/-- What stands between the quotation marks decodes to the string. -/
theorem chars_quoteUnits {s : JsString} (hs : wellFormed s = true) (t : JsString) :
    Chars (quoteUnits s ++ quotationMark :: t) s t := by
  induction s, hs using wellFormed_induction with
  | nil => exact .close t
  | plain c rest hc hl _ ih =>
    rw [quoteUnits_plain hc, List.append_assoc]
    exact chars_quoteUnit hc hl ih
  | pair c next rest hc hl _ ih =>
    have hcn := (isHighSurrogate_iff c).mp hc
    have hnn := (isLowSurrogate_iff next).mp hl
    have ne (d : CodeUnit) (hd : d.toNat < 0xD800) : c ≠ d ∧ next ≠ d := by
      constructor <;> rintro rfl <;> omega
    rw [quoteUnits_pair hc hl]
    exact .unescaped (by omega) (ne _ (by decide)).1 (ne _ (by decide)).1
      (.unescaped (by omega) (ne _ (by decide)).2 (ne _ (by decide)).2 ih)

private theorem wellFormed_quoteUnit {c : CodeUnit} (hh : isHighSurrogate c = false)
    (hl : isLowSurrogate c = false) : wellFormed (quoteUnit c) = true := by
  have hhex (n : Nat) (hn : n < 16) : (hexLower n).toNat < 0xD800 :=
    (by decide : ∀ n : Fin 16, (hexLower n).toNat < 0xD800) ⟨n, hn⟩
  unfold quoteUnit
  split_ifs
  any_goals decide
  · refine wellFormed_of_forall fun d hd ↦ ?_
    have hlt : c.toNat < 65536 := c.toNat_lt
    simp only [List.mem_cons, List.not_mem_nil, or_false] at hd
    rcases hd with rfl | rfl | rfl | rfl | rfl | rfl
    · decide
    · decide
    · exact hhex _ (by omega)
    · exact hhex _ (by omega)
    · exact hhex _ (by omega)
    · exact hhex _ (by omega)
  · simp [wellFormed, hh, hl]

/-- Quoting keeps well-formedness. -/
theorem wellFormed_quoteJson {s : JsString} (hs : wellFormed s = true) :
    wellFormed (quoteJson s) = true := by
  have hunits : wellFormed (quoteUnits s) = true := by
    induction s, hs using wellFormed_induction with
    | nil => rfl
    | plain c rest hc hl _ ih =>
      rw [quoteUnits_plain hc]
      exact wellFormed_append (wellFormed_quoteUnit hc hl) ih
    | pair c next rest hc hl _ ih => rwa [quoteUnits_pair hc hl, wellFormed_cons_pair hc hl]
  rw [quoteJson, wellFormed_cons_of_lt (by decide)]
  exact wellFormed_append hunits (by decide)

section

variable {print : Float → JsString}

theorem numbersPrintBack_arr (items : List Json) :
    NumbersPrintBack print (.arr items) ↔ ∀ v ∈ items, NumbersPrintBack print v :=
  Json.all_arr items

theorem numbersPrintBack_obj (ms : Members) :
    NumbersPrintBack print (.obj ms) ↔ ∀ m ∈ ms, NumbersPrintBack print m.2 := by
  rw [NumbersPrintBack, Json.all_obj]
  exact and_iff_right trivial

private theorem elements_intercalate (text : Json → JsString) (norm : Json → Json)
    (t : JsString) {items : List Json} (hne : items ≠ [])
    (h : ∀ v ∈ items, ∀ u, Value (text v ++ u) (norm v) u) :
    Elements (List.intercalate [valueSeparator] (items.map text) ++ endArray :: t)
      (items.map norm) t := by
  induction items with
  | nil => exact absurd rfl hne
  | cons v rest ih =>
    cases rest with
    | nil =>
      rw [List.map_singleton, List.intercalate_singleton]
      exact .last (h v (by simp) _) (.nil _)
    | cons w rest =>
      have := ih (by simp) fun z hz ↦ h z (List.mem_cons_of_mem v hz)
      rw [List.map_cons, List.map_cons, List.intercalate_cons_cons, List.append_assoc,
        List.append_assoc]
      exact .more (h v (by simp) _) (.nil _) (.nil _) this

private theorem memberList_intercalate (text : Json → JsString) (norm : Json → Json)
    (t : JsString) {ms : Members} (hne : ms ≠ [])
    (h : ∀ m ∈ ms, wellFormed m.1 = true ∧ ∀ u, Value (text m.2 ++ u) (norm m.2) u) :
    MemberList (List.intercalate [valueSeparator]
      (ms.map fun m ↦ quoteJson m.1 ++ [nameSeparator] ++ text m.2) ++ endObject :: t)
      (ms.map fun m ↦ (m.1, norm m.2)) t := by
  have split (m : JsString × Json) (u : JsString) :
      quoteJson m.1 ++ [nameSeparator] ++ text m.2 ++ u =
        quotationMark ::
          (quoteUnits m.1 ++ quotationMark :: (nameSeparator :: (text m.2 ++ u))) := by
    simp [quoteJson]
  induction ms with
  | nil => exact absurd rfl hne
  | cons m rest ih =>
    have hm := h m (by simp)
    cases rest with
    | nil =>
      rw [List.map_singleton, List.intercalate_singleton, split]
      exact .last (chars_quoteUnits hm.1 _) (.nil _) (.nil _) (hm.2 _) (.nil _)
    | cons n rest =>
      have := ih (by simp) fun z hz ↦ h z (List.mem_cons_of_mem m hz)
      rw [List.map_cons, List.map_cons, List.intercalate_cons_cons, List.append_assoc,
        List.append_assoc, split]
      exact .more (chars_quoteUnits hm.1 _) (.nil _) (.nil _) (hm.2 _) (.nil _) (.nil _) this

theorem sortMembers_normal (ms : Members) :
    sortMembers (ms.map fun m ↦ (m.1, m.2.normal)) =
      (sortMembers ms).map fun m ↦ (m.1, m.2.normal) :=
  sortMembers_map (fun m : JsString × Json ↦ m.2.normal) ms

theorem normal_obj (ms : Members) :
    (Json.obj ms).normal = .obj ((sortMembers ms).map fun m ↦ (m.1, m.2.normal)) := by
  rw [Json.normal, Json.normalMembers_eq_map, sortMembers_normal]

/-- The canonical text of encodable data denotes its representative. -/
theorem value_canonicalText {v : Json} (hv : Encodable v) (hp : NumbersPrintBack print v)
    (t : JsString) : Value (canonicalText print v ++ t) v.normal t := by
  induction v using Json.induct generalizing t with
  | null => exact .nullLiteral t
  | bool b =>
    cases b with
    | true => exact .trueLiteral t
    | false => exact .falseLiteral t
  | num x =>
    have hx : PrintsBack print x := hp
    have := Value.number t hx.token
    rwa [hx.reads] at this
  | str s =>
    rw [canonicalText, quoteJson, List.cons_append, List.append_assoc]
    exact .string (chars_quoteUnits hv t)
  | arr items ih =>
    rw [encodable_arr] at hv
    rw [numbersPrintBack_arr] at hp
    rw [canonicalText, canonicalItems_eq_map, Json.normal, Json.normalItems_eq_map, bracketed,
      List.cons_append, List.append_assoc]
    cases items with
    | nil => exact .emptyArray (.nil _)
    | cons v rest =>
      exact .array (.nil _) (elements_intercalate _ _ t (by simp)
        fun w hw ↦ ih w hw (hv w hw) (hp w hw))
  | obj ms ih =>
    rw [encodable_obj] at hv
    rw [numbersPrintBack_obj] at hp
    rw [canonicalText_obj, normal_obj, braced, List.cons_append, List.append_assoc]
    have hmem {m : JsString × Json} : m ∈ sortMembers ms ↔ m ∈ ms :=
      (Json.sortMembers_perm ms).mem_iff
    cases hs : sortMembers ms with
    | nil => exact .emptyObject (.nil _)
    | cons m rest =>
      rw [← hs]
      refine .object (.nil _) (memberList_intercalate _ _ t (by simp [hs]) fun n hn ↦ ?_)
      have hn' := hmem.mp hn
      exact ⟨(hv n hn').1, ih n hn' (hv n hn').2 (hp n hn')⟩

private theorem wellFormed_intercalate {texts : List JsString}
    (h : ∀ t ∈ texts, wellFormed t = true) :
    wellFormed (List.intercalate [valueSeparator] texts) = true := by
  induction texts with
  | nil => rfl
  | cons a rest ih =>
    have ha := h a (by simp)
    cases rest with
    | nil => rwa [List.intercalate_singleton]
    | cons b rest =>
      rw [List.intercalate_cons_cons]
      exact wellFormed_append (wellFormed_append ha (by decide))
        (ih fun t ht ↦ h t (List.mem_cons_of_mem a ht))

/-- The canonical text of encodable data is well formed. -/
theorem wellFormed_canonicalText {v : Json} (hv : Encodable v)
    (hp : NumbersPrintBack print v) : wellFormed (canonicalText print v) = true := by
  induction v using Json.induct with
  | null => exact (by decide : wellFormed (js "null") = true)
  | bool b =>
    cases b with
    | true => exact (by decide : wellFormed (js "true") = true)
    | false => exact (by decide : wellFormed (js "false") = true)
  | num x => exact wellFormed_of_forall (PrintsBack.token hp).lt
  | str s => exact wellFormed_quoteJson hv
  | arr items ih =>
    rw [encodable_arr] at hv
    rw [numbersPrintBack_arr] at hp
    rw [canonicalText, canonicalItems_eq_map, bracketed, wellFormed_cons_of_lt (by decide)]
    refine wellFormed_append (wellFormed_intercalate fun t ht ↦ ?_) (by decide)
    obtain ⟨v, hm, rfl⟩ := List.mem_map.mp ht
    exact ih v hm (hv v hm) (hp v hm)
  | obj ms ih =>
    rw [encodable_obj] at hv
    rw [numbersPrintBack_obj] at hp
    rw [canonicalText_obj, braced, wellFormed_cons_of_lt (by decide)]
    refine wellFormed_append (wellFormed_intercalate fun t ht ↦ ?_) (by decide)
    obtain ⟨m, hm, rfl⟩ := List.mem_map.mp ht
    have hm' := (Json.sortMembers_perm ms).mem_iff.mp hm
    exact wellFormed_append (wellFormed_append (wellFormed_quoteJson (hv m hm').1) (by decide))
      (ih m hm' (hv m hm').2 (hp m hm'))

/-- The representative of strict data is strict. -/
theorem strict_normal {v : Json} (hv : v.Strict) : v.normal.Strict := by
  induction v using Json.induct with
  | null => exact hv
  | bool b => exact hv
  | num x =>
    rw [Json.strict_iff_all] at hv ⊢
    exact isFinite_dropZeroSign hv
  | str s => exact hv
  | arr items ih =>
    rw [Json.strict_arr] at hv
    rw [Json.normal, Json.normalItems_eq_map, Json.strict_arr]
    intro w hw
    obtain ⟨v, hm, rfl⟩ := List.mem_map.mp hw
    exact ih v hm (hv v hm)
  | obj ms ih =>
    rw [Json.strict_obj] at hv
    rw [normal_obj, Json.strict_obj, List.map_map]
    have hperm : ((sortMembers ms).map Prod.fst).Perm (ms.map Prod.fst) :=
      (Json.sortMembers_perm ms).map _
    refine ⟨⟨hperm.nodup_iff.mpr hv.1.1, fun k hk ↦ hv.1.2 k (hperm.mem_iff.mp hk)⟩, ?_⟩
    intro n hn
    obtain ⟨m, hm, rfl⟩ := List.mem_map.mp hn
    have hm' := (Json.sortMembers_perm ms).mem_iff.mp hm
    exact ih m hm' (hv.2 m hm')

theorem sortMembers_sortMembers {β : Type} (ms : List (JsString × β)) :
    sortMembers (sortMembers ms) = sortMembers ms :=
  (Json.sortMembers_pairwise ms).insertionSort_eq

/-- Taking representatives twice changes nothing. -/
theorem normal_normal (v : Json) : v.normal.normal = v.normal := by
  induction v using Json.induct with
  | null => rfl
  | bool b => rfl
  | num x => rw [Json.normal, Json.normal, dropZeroSign_dropZeroSign]
  | str s => rfl
  | arr items ih =>
    rw [Json.normal, Json.normal, Json.normalItems_eq_map, Json.normalItems_eq_map, List.map_map]
    exact congrArg Json.arr (List.map_congr_left ih)
  | obj ms ih =>
    rw [normal_obj, normal_obj, sortMembers_normal, sortMembers_sortMembers,
      List.map_map]
    refine congrArg Json.obj (List.map_congr_left fun m hm ↦ ?_)
    exact congrArg _ (ih m ((Json.sortMembers_perm ms).mem_iff.mp hm))

/-- Canonical text depends on the representative only. -/
theorem canonicalText_normal {v : Json} (hp : NumbersPrintBack print v) :
    canonicalText print v.normal = canonicalText print v := by
  induction v using Json.induct with
  | null => rfl
  | bool b => rfl
  | num x => exact PrintsBack.zero hp
  | str s => rfl
  | arr items ih =>
    rw [numbersPrintBack_arr] at hp
    rw [Json.normal, canonicalText, canonicalText, Json.normalItems_eq_map,
      canonicalItems_eq_map, canonicalItems_eq_map, List.map_map]
    exact congrArg bracketed (List.map_congr_left fun v hv ↦ ih v hv (hp v hv))
  | obj ms ih =>
    rw [numbersPrintBack_obj] at hp
    rw [normal_obj, canonicalText_obj, canonicalText_obj, sortMembers_normal,
      sortMembers_sortMembers, List.map_map]
    refine congrArg braced (List.map_congr_left fun m hm ↦ ?_)
    have hm' := (Json.sortMembers_perm ms).mem_iff.mp hm
    exact congrArg _ (ih m hm' (hp m hm'))

/-! ### The canonical form -/

/-- The strict parser reads the representative back from the canonical text. -/
theorem parseText_canonicalText {v : Json} (hv : v.Strict) (hp : NumbersPrintBack print v) :
    parseText (canonicalText print v) = .ok v.normal := by
  have he := ((strict_iff_encodable v).mp hv).1
  refine parseText_complete (wellFormed_canonicalText he hp) ?_ (strict_normal hv)
  have := value_canonicalText he hp []
  rw [List.append_nil] at this
  exact ⟨_, [], .nil _, this, .nil _⟩

/-- Equal canonical texts mean equal representatives. -/
theorem canonicalText_inj {v w : Json} (hv : v.Strict) (hw : w.Strict)
    (hpv : NumbersPrintBack print v) (hpw : NumbersPrintBack print w) :
    canonicalText print v = canonicalText print w ↔ v.normal = w.normal := by
  constructor
  · intro h
    have hr := parseText_canonicalText hv hpv
    rw [h, parseText_canonicalText hw hpw] at hr
    exact (Except.ok.inj hr).symm
  · intro h
    rw [← canonicalText_normal hpv, h, canonicalText_normal hpw]

/-- `canonicalize` is a canonical form of strict data: it succeeds, the strict parser reads the
data back up to member order, two texts are equal exactly for data that is equal up to member
order, and texts that parse to equal data have the same canonical bytes. -/
theorem canonicalize_canonical {v w : Json} (hv : v.Strict) (hw : w.Strict)
    (hpv : NumbersPrintBack print v) (hpw : NumbersPrintBack print w) :
    (∃ text, canonicalize print (js "$") v = .ok text ∧
      ∃ u, parseJsonStrict text = .ok u ∧ Json.Same v u) ∧
    (canonicalize print (js "$") v = canonicalize print (js "$") w ↔ Json.Same v w) ∧
    (∀ text₁ text₂, parseJsonStrict text₁ = .ok v → parseJsonStrict text₂ = .ok w →
      Json.Same v w → canonicalizeBytes print v = canonicalizeBytes print w) := by
  have hcv : canonicalize print (js "$") v = .ok (canonicalText print v) :=
    (canonicalize_eq_ok_iff print).mpr ⟨((strict_iff_encodable v).mp hv).1, rfl⟩
  have hcw : canonicalize print (js "$") w = .ok (canonicalText print w) :=
    (canonicalize_eq_ok_iff print).mpr ⟨((strict_iff_encodable w).mp hw).1, rfl⟩
  have hsame := Json.same_iff_normal hv.unique w
  refine ⟨⟨_, hcv, v.normal, ?_, ?_⟩, ?_, fun _ _ _ _ h ↦ ?_⟩
  · exact parseJsonStrict_eq_ok_iff.mpr (parseText_canonicalText hv hpv)
  · rw [Json.same_iff_normal hv.unique, normal_normal]
  · rw [hcv, hcw, Except.ok.injEq, canonicalText_inj hv hw hpv hpw, hsame]
  · rw [canonicalizeBytes, canonicalizeBytes, hcv, hcw,
      (canonicalText_inj hv hw hpv hpw).mpr (hsame.mp h)]

end

/-- Number printing on the two zeros. -/
def printZero (_ : Float) : JsString := js "0"

/-- Two members, one of them the number `0`. -/
def sampleData : Json := .obj [(js "b", .num (Float.ofBits 0)), (js "a", .arr [.str (js "\n")])]

/-- The members of `sampleData` in the other order, with `-0`. -/
def samplePermuted : Json :=
  .obj [(js "a", .arr [.str (js "\n")]), (js "b", .num (Float.ofBits 0x8000000000000000))]

private theorem printsBack_zero {x : Float} (hx : dropZeroSign x = Float.ofBits 0)
    (hread : numberOf (js "0") = Float.ofBits 0) : PrintsBack printZero x where
  token := .positive [zeroDigit] [] [] .zero .absent .absent
  reads := hx ▸ hread
  zero := rfl

theorem canonicalize_canonical_sample :
    (∃ text, canonicalize printZero (js "$") sampleData = .ok text ∧
      ∃ u, parseJsonStrict text = .ok u ∧ Json.Same sampleData u) ∧
    (canonicalize printZero (js "$") sampleData = canonicalize printZero (js "$") samplePermuted ↔
      Json.Same sampleData samplePermuted) := by
  have hread : numberOf (js "0") = Float.ofBits 0 := rfl
  have hsigns : dropZeroSign (Float.ofBits 0) = Float.ofBits 0 ∧
      dropZeroSign (Float.ofBits 0x8000000000000000) = Float.ofBits 0 := ⟨rfl, rfl⟩
  have hpv : NumbersPrintBack printZero sampleData := by
    have := printsBack_zero hsigns.1 hread
    simp [NumbersPrintBack, sampleData, Json.All, Json.AllItems, Json.AllMembers, this]
  have hpw : NumbersPrintBack printZero samplePermuted := by
    have := printsBack_zero hsigns.2 hread
    simp [NumbersPrintBack, samplePermuted, Json.All, Json.AllItems, Json.AllMembers, this]
  have hv : sampleData.Strict := by
    rw [Json.strict_iff_all]
    decide
  have hw : samplePermuted.Strict := by
    rw [Json.strict_iff_all]
    decide
  have h := canonicalize_canonical hv hw hpv hpw
  exact ⟨h.1, h.2.1⟩

end TimeProofs.Json
