import TimeProofs.Json.StrictLexical

/-!
# The strict parser against the grammar

`parseJsonStrict` returns exactly the value that the grammar gives the text, when the text is
well formed and the value is `Strict`, and fails only with a `StrictJsonError`. Each direction
is an induction on the fuel with one lemma for each parsing function.
-/

namespace TimeProofs.Json

open TimeProofs.Base TimeProofs.Core

/-- A reading function consumes text and keeps its well-formedness. -/
structure Reads (s t : JsString) : Prop where
  text : wellFormed s = wellFormed t
  shorter : t.length < s.length

theorem Reads.after_ws {s u t : JsString} (hw : Ws s u) (h : Reads u t) : Reads s t :=
  ⟨hw.wellFormed_eq.trans h.text, h.shorter.trans_le hw.length_le⟩

theorem Reads.trans {s u t : JsString} (hu : Reads s u) (ht : Reads u t) : Reads s t :=
  ⟨hu.text.trans ht.text, ht.shorter.trans hu.shorter⟩

theorem Reads.cons {c : CodeUnit} (hc : c.toNat < 0xD800) (s : JsString) : Reads (c :: s) s :=
  ⟨wellFormed_cons_of_lt hc s, Nat.lt_succ_self _⟩

/-- Reading a delimiter after optional whitespace. -/
theorem Reads.delimiter {s t : JsString} {c : CodeUnit} (hw : Ws s (c :: t))
    (hc : c.toNat < 0xD800) : Reads s t :=
  .after_ws hw (.cons hc t)

/-- The bound on the units of a literal, as a test. -/
private theorem lt_of_all {raw : JsString}
    (h : raw.all (fun c ↦ decide (c.toNat < 0xD800)) = true) : ∀ c ∈ raw, c.toNat < 0xD800 :=
  fun c hc ↦ of_decide_eq_true (List.all_eq_true.mp h c hc)

theorem Reads.append {raw : JsString} (hne : raw ≠ []) (h : ∀ c ∈ raw, c.toNat < 0xD800)
    (t : JsString) : Reads (raw ++ t) t := by
  refine ⟨wellFormed_append_of_lt h t, ?_⟩
  have := List.length_pos_iff.mpr hne
  rw [List.length_append]
  omega

/-- A delimiter found after skipping whitespace. -/
theorem ws_of_head {s : JsString} {c : CodeUnit}
    (h : (skipWhitespace s).head? = some c) : Ws s (c :: (skipWhitespace s).tail) := by
  obtain ⟨t, ht⟩ := List.head?_eq_some_iff.mp h
  have hw := ws_skipWhitespace s
  rw [ht] at hw ⊢
  exact hw

/-! ### Soundness -/

/-- The names of a member list are distinct, well formed and not among `keys`. -/
structure FreshNames (keys : List JsString) (ms : Members) : Prop where
  nodup : (ms.map Prod.fst).Nodup
  text : ∀ k ∈ ms.map Prod.fst, wellFormed k = true
  fresh : ∀ k ∈ ms.map Prod.fst, k ∉ keys

theorem FreshNames.single {keys : List JsString} {k : JsString} (v : Json)
    (hk : k ∉ keys) (hw : wellFormed k = true) : FreshNames keys [(k, v)] where
  nodup := by simp
  text := by simp [hw]
  fresh := by simp [hk]

theorem FreshNames.cons {keys : List JsString} {k : JsString} {ms : Members} (v : Json)
    (hk : k ∉ keys) (hw : wellFormed k = true) (h : FreshNames (k :: keys) ms) :
    FreshNames keys ((k, v) :: ms) where
  nodup := by
    rw [List.map_cons, List.nodup_cons]
    exact ⟨fun hm ↦ h.fresh k hm (by simp), h.nodup⟩
  text := by
    rintro k' hk'
    rcases List.mem_cons.mp hk' with rfl | hm
    · exact hw
    · exact h.text k' hm
  fresh := by
    rintro k' hk'
    rcases List.mem_cons.mp hk' with rfl | hm
    · exact hk
    · exact fun hin ↦ h.fresh k' hm (by simp [hin])

/-- What the parsing functions return with a given fuel is denoted by the text they consume. -/
structure SoundAt (fuel : Nat) : Prop where
  value : ∀ {s v t}, parseValue fuel s = .ok (v, t) →
    ∃ u, Ws s u ∧ Value u v t ∧ v.Strict ∧ Reads s t
  array : ∀ {s v t}, parseArray fuel s = .ok (v, t) →
    Value (beginArray :: s) v t ∧ v.Strict ∧ Reads s t
  elements : ∀ {s items t}, parseElements fuel s = .ok (items, t) →
    ∃ u, Ws s u ∧ Elements u items t ∧ (∀ v ∈ items, v.Strict) ∧ Reads s t
  object : ∀ {s v t}, parseObject fuel s = .ok (v, t) →
    Value (beginObject :: s) v t ∧ v.Strict ∧ Reads s t
  members : ∀ {keys s ms t}, parseMembers fuel keys s = .ok (ms, t) →
    MemberList s ms t ∧ (∀ m ∈ ms, m.2.Strict) ∧ FreshNames keys ms ∧ Reads s t

theorem parseKeyword_sound {keyword : String} {value v : Json} {s t : JsString}
    (h : parseKeyword keyword value s = .ok (v, t)) : s = js keyword ++ t ∧ v = value := by
  unfold parseKeyword at h
  split at h
  · cases h
  · next hk =>
    simp only [ne_eq, Decidable.not_not] at hk
    obtain ⟨rfl, rfl⟩ := Prod.mk.inj (Except.ok.inj h)
    refine ⟨?_, rfl⟩
    have := List.take_append_drop (js keyword).length s
    rw [hk] at this
    exact this.symm

private theorem strict_leaf_null : Json.null.Strict := (Json.strict_iff_all _).mpr trivial

private theorem strict_leaf_bool (b : Bool) : (Json.bool b).Strict :=
  (Json.strict_iff_all _).mpr trivial

private theorem parseValue_sound {fuel : Nat} (ih : SoundAt fuel) {s t : JsString} {v : Json}
    (h : parseValue (fuel + 1) s = .ok (v, t)) :
    ∃ u, Ws s u ∧ Value u v t ∧ v.Strict ∧ Reads s t := by
  have hw := ws_skipWhitespace s
  refine ⟨_, hw, ?_⟩
  rw [parseValue] at h
  suffices hv : Value (skipWhitespace s) v t ∧ v.Strict ∧ Reads (skipWhitespace s) t from
    ⟨hv.1, hv.2.1, .after_ws hw hv.2.2⟩
  cases hs : skipWhitespace s with
  | nil =>
    rw [hs] at h
    cases h
  | cons c rest =>
    simp only [hs] at h
    split at h
    · next hc =>
      obtain ⟨⟨d, t'⟩, hp, hk⟩ := bind_eq_ok h
      obtain ⟨rfl, rfl⟩ := Prod.mk.inj (Except.ok.inj hk)
      obtain ⟨s', hs', hchars, hd, htext, hlt⟩ := parseString_sound hp
      rw [hs']
      rw [hs'] at htext hlt
      exact ⟨.string hchars, (Json.strict_iff_all _).mpr hd, htext, hlt⟩
    split at h
    · next hc =>
      subst hc
      obtain ⟨hv, hst, hr⟩ := ih.object h
      exact ⟨hv, hst, (Reads.cons (by decide) rest).trans hr⟩
    split at h
    · next hc =>
      subst hc
      obtain ⟨hv, hst, hr⟩ := ih.array h
      exact ⟨hv, hst, (Reads.cons (by decide) rest).trans hr⟩
    split at h
    · obtain ⟨he, rfl⟩ := parseKeyword_sound h
      rw [he]
      exact ⟨.trueLiteral t, strict_leaf_bool _, .append (by decide) (lt_of_all (by decide)) t⟩
    split at h
    · obtain ⟨he, rfl⟩ := parseKeyword_sound h
      rw [he]
      exact ⟨.falseLiteral t, strict_leaf_bool _, .append (by decide) (lt_of_all (by decide)) t⟩
    split at h
    · obtain ⟨he, rfl⟩ := parseKeyword_sound h
      rw [he]
      exact ⟨.nullLiteral t, strict_leaf_null, .append (by decide) (lt_of_all (by decide)) t⟩
    split at h
    · obtain ⟨raw, he, hn, rfl, hf⟩ := parseNumber_sound h
      rw [he]
      obtain ⟨c, rest, rfl, -⟩ := hn.head
      exact ⟨.number t hn, (Json.strict_iff_all _).mpr hf, .append (by simp) hn.lt t⟩
    · cases h

private theorem parseArray_sound {fuel : Nat} (ih : SoundAt fuel) {s t : JsString} {v : Json}
    (h : parseArray (fuel + 1) s = .ok (v, t)) :
    Value (beginArray :: s) v t ∧ v.Strict ∧ Reads s t := by
  rw [parseArray] at h
  dsimp only at h
  split at h
  · next hc =>
    obtain ⟨rfl, rfl⟩ := Prod.mk.inj (Except.ok.inj h)
    have hw := ws_of_head hc
    exact ⟨.emptyArray hw, (Json.strict_arr _).mpr (by simp), .delimiter hw (by decide)⟩
  · obtain ⟨⟨items, t'⟩, he, hk⟩ := bind_eq_ok h
    obtain ⟨rfl, rfl⟩ := Prod.mk.inj (Except.ok.inj hk)
    obtain ⟨u, hu, hel, hst, hr⟩ := ih.elements he
    have hw := ws_skipWhitespace s
    exact ⟨.array (hw.trans hu) hel, (Json.strict_arr _).mpr hst, .after_ws hw hr⟩

private theorem parseElements_sound {fuel : Nat} (ih : SoundAt fuel) {s t : JsString}
    {items : List Json} (h : parseElements (fuel + 1) s = .ok (items, t)) :
    ∃ u, Ws s u ∧ Elements u items t ∧ (∀ v ∈ items, v.Strict) ∧ Reads s t := by
  rw [parseElements] at h
  obtain ⟨⟨v, s₁⟩, hv, hk⟩ := bind_eq_ok h
  obtain ⟨u, hu, hval, hst, hr⟩ := ih.value hv
  dsimp only at hk
  refine ⟨u, hu, ?_⟩
  split at hk
  · next hc =>
    obtain ⟨rfl, rfl⟩ := Prod.mk.inj (Except.ok.inj hk)
    have hw := ws_of_head hc
    exact ⟨.last hval hw, by simpa using hst, hr.trans (.delimiter hw (by decide))⟩
  split at hk
  · cases hk
  · next hc =>
    simp only [ne_eq, Decidable.not_not] at hc
    have hw := ws_of_head hc
    obtain ⟨⟨rest, t'⟩, he, hk'⟩ := bind_eq_ok hk
    obtain ⟨rfl, rfl⟩ := Prod.mk.inj (Except.ok.inj hk')
    obtain ⟨x, hx, hel, hsts, hr'⟩ := ih.elements he
    have hw' := ws_skipWhitespace (skipWhitespace s₁).tail
    refine ⟨.more hval hw (hw'.trans hx) hel, ?_,
      hr.trans ((Reads.delimiter hw (by decide)).trans (.after_ws hw' hr'))⟩
    rintro w hm
    rcases List.mem_cons.mp hm with rfl | hm
    · exact hst
    · exact hsts w hm

private theorem parseObject_sound {fuel : Nat} (ih : SoundAt fuel) {s t : JsString} {v : Json}
    (h : parseObject (fuel + 1) s = .ok (v, t)) :
    Value (beginObject :: s) v t ∧ v.Strict ∧ Reads s t := by
  rw [parseObject] at h
  dsimp only at h
  split at h
  · next hc =>
    obtain ⟨rfl, rfl⟩ := Prod.mk.inj (Except.ok.inj h)
    have hw := ws_of_head hc
    exact ⟨.emptyObject hw, (Json.strict_obj _).mpr (by simp), .delimiter hw (by decide)⟩
  · obtain ⟨⟨ms, t'⟩, he, hk⟩ := bind_eq_ok h
    obtain ⟨rfl, rfl⟩ := Prod.mk.inj (Except.ok.inj hk)
    obtain ⟨hms, hst, hn, hr⟩ := ih.members he
    have hw := ws_skipWhitespace s
    exact ⟨.object hw hms, (Json.strict_obj _).mpr ⟨⟨hn.nodup, hn.text⟩, hst⟩,
      .after_ws hw hr⟩

private theorem parseMembers_sound {fuel : Nat} (ih : SoundAt fuel) {keys : List JsString}
    {s t : JsString} {ms : Members} (h : parseMembers (fuel + 1) keys s = .ok (ms, t)) :
    MemberList s ms t ∧ (∀ m ∈ ms, m.2.Strict) ∧ FreshNames keys ms ∧ Reads s t := by
  rw [parseMembers] at h
  split at h
  · cases h
  obtain ⟨⟨k, s₁⟩, hkey, h₁⟩ := bind_eq_ok h
  obtain ⟨s', rfl, hchars, hkw, hkr⟩ := parseString_sound hkey
  dsimp only at h₁
  split at h₁
  · cases h₁
  next hfresh =>
  split at h₁
  · cases h₁
  next hcolon =>
  simp only [ne_eq, Decidable.not_not] at hcolon
  have hwc := ws_of_head hcolon
  obtain ⟨⟨v, s₂⟩, hv, h₂⟩ := bind_eq_ok h₁
  obtain ⟨u, hu, hval, hst, hr⟩ := ih.value hv
  have hws := ws_skipWhitespace (skipWhitespace s₁).tail
  have hread : Reads (quotationMark :: s') s₂ :=
    (Reads.mk hkr.1 hkr.2).trans ((Reads.delimiter hwc (by decide)).trans (.after_ws hws hr))
  dsimp only at h₂
  split at h₂
  · next hc =>
    obtain ⟨rfl, rfl⟩ := Prod.mk.inj (Except.ok.inj h₂)
    have hw := ws_of_head hc
    exact ⟨.last hchars hwc (hws.trans hu) hval hw, by simpa using hst,
      .single v hfresh hkw, hread.trans (.delimiter hw (by decide))⟩
  split at h₂
  · cases h₂
  · next hc =>
    simp only [ne_eq, Decidable.not_not] at hc
    have hw := ws_of_head hc
    obtain ⟨⟨rest, t'⟩, he, hk'⟩ := bind_eq_ok h₂
    obtain ⟨rfl, rfl⟩ := Prod.mk.inj (Except.ok.inj hk')
    obtain ⟨hms, hsts, hn, hr'⟩ := ih.members he
    have hw' := ws_skipWhitespace (skipWhitespace s₂).tail
    refine ⟨.more hchars hwc (hws.trans hu) hval hw hw' hms, ?_, .cons v hfresh hkw hn,
      hread.trans ((Reads.delimiter hw (by decide)).trans (.after_ws hw' hr'))⟩
    rintro m hm
    rcases List.mem_cons.mp hm with rfl | hm
    · exact hst
    · exact hsts m hm

/-- Every outcome of the recursive functions is denoted by the text. -/
theorem soundAt (fuel : Nat) : SoundAt fuel := by
  induction fuel with
  | zero => constructor <;> intros <;> next h => cases h
  | succ fuel ih =>
    exact
      { value := parseValue_sound ih
        array := parseArray_sound ih
        elements := parseElements_sound ih
        object := parseObject_sound ih
        members := parseMembers_sound ih }

/-- With fuel in proportion to the text the parsing functions fail only with a
`StrictJsonError`. -/
structure StrictAt (fuel : Nat) : Prop where
  value : ∀ s, 3 * s.length < fuel → FailsStrictly (parseValue fuel s)
  array : ∀ s, 3 * s.length + 2 < fuel → FailsStrictly (parseArray fuel s)
  elements : ∀ s, 3 * s.length + 1 < fuel → FailsStrictly (parseElements fuel s)
  object : ∀ s, 3 * s.length + 2 < fuel → FailsStrictly (parseObject fuel s)
  members : ∀ keys s, 3 * s.length + 1 < fuel → FailsStrictly (parseMembers fuel keys s)

private theorem failsStrictly_parseKeyword (keyword : String) (value : Json) (s : JsString) :
    FailsStrictly (parseKeyword keyword value s) := by
  unfold parseKeyword
  split
  · exact failsStrictly_fail _ _ _
  · exact failsStrictly_ok _

private theorem failsStrictly_parseValue {fuel : Nat} (ih : StrictAt fuel) {s : JsString}
    (hf : 3 * s.length < fuel + 1) : FailsStrictly (parseValue (fuel + 1) s) := by
  rw [parseValue]
  have hlen := length_skipWhitespace_le s
  cases hs : skipWhitespace s with
  | nil => exact failsStrictly_fail _ _ _
  | cons c rest =>
    rw [hs, List.length_cons] at hlen
    dsimp only
    split
    · exact failsStrictly_bind (failsStrictly_parseString _) fun _ _ ↦ failsStrictly_ok _
    split
    · exact ih.object rest (by omega)
    split
    · exact ih.array rest (by omega)
    split
    · exact failsStrictly_parseKeyword _ _ _
    split
    · exact failsStrictly_parseKeyword _ _ _
    split
    · exact failsStrictly_parseKeyword _ _ _
    split
    · exact failsStrictly_parseNumber _
    · rintro f ⟨⟩
      trivial

private theorem failsStrictly_parseArray {fuel : Nat} (ih : StrictAt fuel) {s : JsString}
    (hf : 3 * s.length + 2 < fuel + 1) : FailsStrictly (parseArray (fuel + 1) s) := by
  have hlen := length_skipWhitespace_le s
  rw [parseArray]
  dsimp only
  split
  · exact failsStrictly_ok _
  · exact failsStrictly_bind (ih.elements _ (by omega)) fun _ _ ↦ failsStrictly_ok _

/-- The text left after a delimiter found past the whitespace. -/
private theorem length_tail_skip {s : JsString} {c : CodeUnit}
    (h : (skipWhitespace s).head? = some c) :
    (skipWhitespace (skipWhitespace s).tail).length < s.length := by
  have hw := (ws_of_head h).length_le
  have ht := length_skipWhitespace_le (skipWhitespace s).tail
  rw [List.length_cons] at hw
  omega

private theorem failsStrictly_parseElements {fuel : Nat} (ih : StrictAt fuel) {s : JsString}
    (hf : 3 * s.length + 1 < fuel + 1) : FailsStrictly (parseElements (fuel + 1) s) := by
  rw [parseElements]
  refine failsStrictly_bind (ih.value s (by omega)) fun p hp ↦ ?_
  obtain ⟨_, _, _, _, hr⟩ := (soundAt fuel).value hp
  dsimp only
  split
  · exact failsStrictly_ok _
  split
  · exact failsStrictly_fail _ _ _
  · next hc =>
    simp only [ne_eq, Decidable.not_not] at hc
    have hlt := length_tail_skip hc
    have hs := hr.shorter
    exact failsStrictly_bind (ih.elements _ (by omega)) fun _ _ ↦ failsStrictly_ok _

private theorem failsStrictly_parseObject {fuel : Nat} (ih : StrictAt fuel) {s : JsString}
    (hf : 3 * s.length + 2 < fuel + 1) : FailsStrictly (parseObject (fuel + 1) s) := by
  have hlen := length_skipWhitespace_le s
  rw [parseObject]
  dsimp only
  split
  · exact failsStrictly_ok _
  · exact failsStrictly_bind (ih.members _ _ (by omega)) fun _ _ ↦ failsStrictly_ok _

private theorem failsStrictly_parseMembers {fuel : Nat} (ih : StrictAt fuel)
    {keys : List JsString} {s : JsString} (hf : 3 * s.length + 1 < fuel + 1) :
    FailsStrictly (parseMembers (fuel + 1) keys s) := by
  rw [parseMembers]
  split
  · exact failsStrictly_fail _ _ _
  refine failsStrictly_bind (failsStrictly_parseString s) fun p hp ↦ ?_
  obtain ⟨_, _, _, _, _, hks⟩ := parseString_sound hp
  dsimp only
  split
  · rintro f ⟨⟩
    trivial
  split
  · exact failsStrictly_fail _ _ _
  next hcolon =>
  simp only [ne_eq, Decidable.not_not] at hcolon
  have hcl := length_tail_skip hcolon
  refine failsStrictly_bind (ih.value _ (by omega)) fun q hq ↦ ?_
  obtain ⟨_, _, _, _, hr⟩ := (soundAt fuel).value hq
  have hs := hr.shorter
  split
  · exact failsStrictly_ok _
  split
  · exact failsStrictly_fail _ _ _
  · next hc =>
    simp only [ne_eq, Decidable.not_not] at hc
    have hlt := length_tail_skip hc
    exact failsStrictly_bind (ih.members _ _ (by omega)) fun _ _ ↦ failsStrictly_ok _

/-- The fuel of `parseJsonStrict` never runs out and no `TypeError` escapes. -/
theorem strictAt (fuel : Nat) : StrictAt fuel := by
  induction fuel with
  | zero => constructor <;> intros <;> omega
  | succ fuel ih =>
    exact
      { value := fun _ ↦ failsStrictly_parseValue ih
        array := fun _ ↦ failsStrictly_parseArray ih
        elements := fun _ ↦ failsStrictly_parseElements ih
        object := fun _ ↦ failsStrictly_parseObject ih
        members := fun _ _ ↦ failsStrictly_parseMembers ih }

/-! ### Completeness -/

/-- Whitespace, a comma or a closing bracket. -/
def isFollower (c : CodeUnit) : Bool :=
  isWhitespace c || c = valueSeparator || c = endArray || c = endObject

private theorem endsToken_of_follower {c : CodeUnit} (h : isFollower c = true) (t : JsString) :
    EndsToken (c :: t) := by
  rintro d hd
  obtain rfl := Option.some.inj hd
  simp only [isFollower, isWhitespace, Bool.or_eq_true, decide_eq_true_eq] at h
  rcases h with ((((((rfl | rfl) | rfl) | rfl) | rfl) | rfl) | rfl) <;> decide

/-- After a value come whitespace and a delimiter, which no number token continues with. -/
theorem endsToken_of_ws {u t : JsString} {c : CodeUnit} (h : Ws u (c :: t))
    (hc : isFollower c = true) : EndsToken u := by
  cases h with
  | nil => exact endsToken_of_follower hc t
  | @cons d s _ hd => exact endsToken_of_follower (by simp [isFollower, hd]) s

theorem endsToken_of_ws_nil {u : JsString} (h : Ws u []) : EndsToken u := by
  cases h with
  | nil => nofun
  | @cons d s _ hd => exact endsToken_of_follower (by simp [isFollower, hd]) s

theorem parseKeyword_complete (keyword : String) (value : Json) (t : JsString) :
    parseKeyword keyword value (js keyword ++ t) = .ok (value, t) := by
  simp [parseKeyword]

/-- A value starts at its first unit. -/
theorem Value.head_not_ws {s t : JsString} {v : Json} (h : Value s v t) :
    ∃ c rest, s = c :: rest ∧ isWhitespace c = false := by
  cases h with
  | nullLiteral => exact ⟨_, _, rfl, by decide⟩
  | falseLiteral => exact ⟨_, _, rfl, by decide⟩
  | trueLiteral => exact ⟨_, _, rfl, by decide⟩
  | number t hn =>
    obtain ⟨c, rest, rfl, rfl | hd⟩ := hn.head
    · exact ⟨_, _, rfl, by decide⟩
    · refine ⟨c, _, rfl, ?_⟩
      cases hw : isWhitespace c with
      | false => rfl
      | true =>
        simp only [isWhitespace, Bool.or_eq_true, decide_eq_true_eq] at hw
        rcases hw with ((rfl | rfl) | rfl) | rfl <;> exact absurd hd (by decide)
  | string => exact ⟨_, _, rfl, by decide⟩
  | emptyArray => exact ⟨_, _, rfl, by decide⟩
  | array => exact ⟨_, _, rfl, by decide⟩
  | emptyObject => exact ⟨_, _, rfl, by decide⟩
  | object => exact ⟨_, _, rfl, by decide⟩

theorem skipWhitespace_value {p s t : JsString} {v : Json} (hw : Ws p s)
    (h : Value s v t) : skipWhitespace p = s := by
  obtain ⟨c, rest, rfl, hc⟩ := h.head_not_ws
  exact hw.skipWhitespace_of_head hc

/-- What the grammar derives with strict data, the parsing functions return. -/
structure CompleteAt (fuel : Nat) : Prop where
  value : ∀ {p s v t}, Ws p s → Value s v t → v.Strict → wellFormed s = true → EndsToken t →
    3 * p.length < fuel → parseValue fuel p = .ok (v, t)
  elements : ∀ {s items t}, Elements s items t → (∀ v ∈ items, v.Strict) →
    wellFormed s = true → 3 * s.length + 1 < fuel → parseElements fuel s = .ok (items, t)
  members : ∀ {keys s ms t}, MemberList s ms t → (∀ m ∈ ms, m.2.Strict) →
    FreshNames keys ms → wellFormed s = true → 3 * s.length + 1 < fuel →
    parseMembers fuel keys s = .ok (ms, t)
  emptyArray : ∀ {s t}, Ws s (endArray :: t) → 0 < fuel →
    parseArray fuel s = .ok (.arr [], t)
  array : ∀ {s u items t}, Ws s u → Elements u items t → (∀ v ∈ items, v.Strict) →
    wellFormed s = true → 3 * s.length + 2 < fuel → parseArray fuel s = .ok (.arr items, t)
  emptyObject : ∀ {s t}, Ws s (endObject :: t) → 0 < fuel →
    parseObject fuel s = .ok (.obj [], t)
  object : ∀ {s u ms t}, Ws s u → MemberList u ms t → (∀ m ∈ ms, m.2.Strict) →
    FreshNames [] ms → wellFormed s = true → 3 * s.length + 2 < fuel →
    parseObject fuel s = .ok (.obj ms, t)

private theorem parseValue_number {fuel : Nat} {p s : JsString} {c : CodeUnit}
    (hs : skipWhitespace p = c :: s) (hc : c = minusSign ∨ isDigit c = true) :
    parseValue (fuel + 1) p = parseNumber (c :: s) := by
  have hne {d : CodeUnit} (h₁ : d ≠ minusSign) (h₂ : isDigit d = false) : c ≠ d := by
    rintro rfl
    rcases hc with hc | hc
    · exact h₁ hc
    · rw [h₂] at hc
      cases hc
  have hnum : (decide (c = minusSign) || isDigit c) = true := by simpa using hc
  rw [parseValue]
  simp only [hs, hne (d := quotationMark) (by decide) (by decide),
    hne (d := beginObject) (by decide) (by decide), hne (d := beginArray) (by decide) (by decide),
    hne (d := 0x74) (by decide) (by decide), hne (d := 0x66) (by decide) (by decide),
    hne (d := 0x6E) (by decide) (by decide), hnum, if_true, if_false]

private theorem parseValue_complete {fuel : Nat} (ih : CompleteAt fuel) {p s t : JsString}
    {v : Json} (hw : Ws p s) (h : Value s v t) (hv : v.Strict) (hs : wellFormed s = true)
    (ht : EndsToken t) (hf : 3 * p.length < fuel + 1) :
    parseValue (fuel + 1) p = .ok (v, t) := by
  have hskip := skipWhitespace_value hw h
  have hlen := hw.length_le
  cases h with
  | nullLiteral =>
    rw [parseValue, hskip]
    exact parseKeyword_complete "null" .null t
  | falseLiteral =>
    rw [parseValue, hskip]
    exact parseKeyword_complete "false" (.bool false) t
  | trueLiteral =>
    rw [parseValue, hskip]
    exact parseKeyword_complete "true" (.bool true) t
  | number t hn =>
    obtain ⟨c, rest, rfl, hc⟩ := hn.head
    rw [parseValue_number hskip hc]
    exact parseNumber_complete hn ((Json.strict_iff_all _).mp hv) ht
  | string hd =>
    rw [wellFormed_cons_of_lt (by decide)] at hs
    rw [parseValue]
    simp only [hskip, if_true, parseString_complete hd hs ((Json.strict_iff_all _).mp hv)]
    rfl
  | emptyArray hw' =>
    simp only [List.length_cons] at hlen
    rw [parseValue, hskip]
    exact ih.emptyArray hw' (by omega)
  | array hw' he =>
    rw [wellFormed_cons_of_lt (by decide)] at hs
    simp only [List.length_cons] at hlen
    rw [parseValue, hskip]
    exact ih.array hw' he ((Json.strict_arr _).mp hv) hs (by omega)
  | emptyObject hw' =>
    simp only [List.length_cons] at hlen
    rw [parseValue, hskip]
    exact ih.emptyObject hw' (by omega)
  | object hw' hm =>
    rw [wellFormed_cons_of_lt (by decide)] at hs
    simp only [List.length_cons] at hlen
    have hst := (Json.strict_obj _).mp hv
    rw [parseValue, hskip]
    exact ih.object hw' hm hst.2 ⟨hst.1.1, hst.1.2, by simp⟩ hs (by omega)

/-- Text that starts an array element or a member is left alone by `skipWhitespace`. -/
theorem Elements.skipWhitespace_eq {p s t : JsString} {items : List Json}
    (hw : Ws p s) (h : Elements s items t) : skipWhitespace p = s := by
  cases h with
  | last hv => exact skipWhitespace_value hw hv
  | more hv => exact skipWhitespace_value hw hv

theorem MemberList.skipWhitespace_eq {p s t : JsString} {ms : Members}
    (hw : Ws p s) (h : MemberList s ms t) : skipWhitespace p = s := by
  cases h with
  | last => exact hw.skipWhitespace_of_head (by decide)
  | more => exact hw.skipWhitespace_of_head (by decide)

theorem Elements.head_ne {s t : JsString} {items : List Json}
    (h : Elements s items t) : s.head? ≠ some endArray := by
  have ne {s u : JsString} {v : Json} (hv : Value s v u) : s.head? ≠ some endArray := by
    cases hv with
    | nullLiteral => exact (by decide : ¬some (0x6E : CodeUnit) = some endArray)
    | falseLiteral => exact (by decide : ¬some (0x66 : CodeUnit) = some endArray)
    | trueLiteral => exact (by decide : ¬some (0x74 : CodeUnit) = some endArray)
    | number t hn =>
      obtain ⟨c, rest, rfl, rfl | hd⟩ := hn.head
      · exact (by decide : ¬some minusSign = some endArray)
      · rintro hc
        obtain rfl := Option.some.inj hc
        exact absurd hd (by decide)
    | string => exact (by decide : ¬some quotationMark = some endArray)
    | emptyArray => exact (by decide : ¬some beginArray = some endArray)
    | array => exact (by decide : ¬some beginArray = some endArray)
    | emptyObject => exact (by decide : ¬some beginObject = some endArray)
    | object => exact (by decide : ¬some beginObject = some endArray)
  cases h with
  | last hv => exact ne hv
  | more hv => exact ne hv

theorem MemberList.head_eq {s t : JsString} {ms : Members} (h : MemberList s ms t) :
    s.head? = some quotationMark := by
  cases h with
  | last => rfl
  | more => rfl

private theorem parseArray_complete {fuel : Nat} (ih : CompleteAt fuel) {s u t : JsString}
    {items : List Json} (hw : Ws s u) (he : Elements u items t)
    (hst : ∀ v ∈ items, v.Strict) (hs : wellFormed s = true)
    (hf : 3 * s.length + 2 < fuel + 1) : parseArray (fuel + 1) s = .ok (.arr items, t) := by
  have hlen := hw.length_le
  rw [parseArray, he.skipWhitespace_eq hw, if_neg he.head_ne,
    ih.elements he hst (by rwa [← hw.wellFormed_eq]) (by omega)]
  rfl

private theorem parseObject_complete {fuel : Nat} (ih : CompleteAt fuel) {s u t : JsString}
    {ms : Members} (hw : Ws s u) (hm : MemberList u ms t) (hst : ∀ m ∈ ms, m.2.Strict)
    (hn : FreshNames [] ms) (hs : wellFormed s = true) (hf : 3 * s.length + 2 < fuel + 1) :
    parseObject (fuel + 1) s = .ok (.obj ms, t) := by
  have hlen := hw.length_le
  have hne : u.head? ≠ some endObject := by
    rw [hm.head_eq]
    decide
  rw [parseObject, hm.skipWhitespace_eq hw, if_neg hne,
    ih.members hm hst hn (by rwa [← hw.wellFormed_eq]) (by omega)]
  rfl

private theorem parseElements_complete {fuel : Nat} (ih : CompleteAt fuel) {s t : JsString}
    {items : List Json} (h : Elements s items t) (hst : ∀ v ∈ items, v.Strict)
    (hs : wellFormed s = true) (hf : 3 * s.length + 1 < fuel + 1) :
    parseElements (fuel + 1) s = .ok (items, t) := by
  cases h with
  | @last _ u _ v hv hw =>
    have hval := ih.value (.nil s) hv (hst v (by simp)) hs (endsToken_of_ws hw (by decide))
      (by omega)
    rw [parseElements, hval]
    simp only [bind, Except.bind, hw.skipWhitespace_of_head (by decide), List.head?_cons,
      if_true, List.tail_cons]
  | @more _ u w x _ v items hv hw hw' he =>
    have hval := ih.value (.nil s) hv (hst v (by simp)) hs (endsToken_of_ws hw (by decide))
      (by omega)
    obtain ⟨_, _, _, _, hr⟩ := (soundAt fuel).value hval
    have hr' := (hr.trans (.delimiter hw (by decide)))
    have hx : wellFormed x = true := by rw [← hw'.wellFormed_eq, ← hr'.text, hs]
    have hlen := hr'.shorter
    have hlen' := hw'.length_le
    have hrest := ih.elements he (fun z hz ↦ hst z (by simp [hz])) hx (by omega)
    rw [parseElements, hval]
    simp only [bind, Except.bind, hw.skipWhitespace_of_head (by decide), List.head?_cons,
      List.tail_cons, he.skipWhitespace_eq hw', hrest]
    rfl

/-- A member's name, colon and value are read as the grammar has them. -/
private theorem parseMember_complete {fuel : Nat} (ih : CompleteAt fuel)
    {s u w x y k : JsString} {v : Json} (hc : Chars s k u) (hk : wellFormed k = true)
    (hcolon : Ws u (nameSeparator :: w)) (hw : Ws w x) (hv : Value x v y) (hst : v.Strict)
    (hs : wellFormed (quotationMark :: s) = true) (hy : EndsToken y)
    (hf : 3 * (quotationMark :: s).length + 1 < fuel + 1) :
    parseString (quotationMark :: s) = .ok (k, u) ∧
      skipWhitespace u = nameSeparator :: w ∧
      parseValue fuel (skipWhitespace w) = .ok (v, y) ∧ Reads (quotationMark :: s) y := by
  have hs' : wellFormed s = true := by rwa [wellFormed_cons_of_lt (by decide)] at hs
  have hp := parseString_complete hc hs' hk
  obtain ⟨_, _, _, _, htext, hlt⟩ := parseString_sound hp
  have hr : Reads (quotationMark :: s) x :=
    (Reads.mk htext hlt).trans
      ⟨(Reads.delimiter hcolon (by decide)).text.trans hw.wellFormed_eq,
        hw.length_le.trans_lt (Reads.delimiter hcolon (by decide)).shorter⟩
  have hlen := hr.shorter
  have hval := ih.value (.nil x) hv hst (hr.text ▸ hs) hy (by omega)
  rw [← skipWhitespace_value hw hv] at hval
  obtain ⟨_, _, _, _, hrv⟩ := (soundAt fuel).value hval
  rw [skipWhitespace_value hw hv] at hrv
  exact ⟨hp, hcolon.skipWhitespace_of_head (by decide), hval, hr.trans hrv⟩

private theorem parseMembers_complete {fuel : Nat} (ih : CompleteAt fuel)
    {keys : List JsString} {s t : JsString} {ms : Members} (h : MemberList s ms t)
    (hst : ∀ m ∈ ms, m.2.Strict) (hn : FreshNames keys ms) (hs : wellFormed s = true)
    (hf : 3 * s.length + 1 < fuel + 1) : parseMembers (fuel + 1) keys s = .ok (ms, t) := by
  cases h with
  | @last s u w x y _ k v hc hcolon hw hv hend =>
    obtain ⟨hp, hsep, hval, -⟩ := parseMember_complete ih hc (hn.text k (by simp)) hcolon hw hv
      (hst (k, v) (by simp)) hs (endsToken_of_ws hend (by decide)) hf
    have hfresh : k ∉ keys := hn.fresh k (by simp)
    rw [parseMembers, hp]
    simp only [List.head?_cons, ne_eq, not_true_eq_false, if_false, bind, Except.bind, hfresh,
      hsep, List.tail_cons, hval, hend.skipWhitespace_of_head (c := endObject) (by decide),
      if_true]
  | @more s u w x y z a _ k v ms hc hcolon hw hv hsep' hw' hm =>
    obtain ⟨hp, hsep, hval, hr⟩ := parseMember_complete ih hc (hn.text k (by simp)) hcolon hw hv
      (hst (k, v) (by simp)) hs (endsToken_of_ws hsep' (by decide)) hf
    have hfresh : k ∉ keys := hn.fresh k (by simp)
    have hr' := hr.trans (.delimiter hsep' (by decide))
    have hlen := hr'.shorter
    have hlen' := hw'.length_le
    have hrest : parseMembers fuel (k :: keys) a = .ok (ms, t) := by
      refine ih.members hm (fun m hm ↦ hst m (by simp [hm])) ?_ ?_ (by omega)
      · have hnd := List.nodup_cons.mp hn.nodup
        refine ⟨hnd.2, fun k' hk' ↦ hn.text k' (by simp [hk']), fun k' hk' hin ↦ ?_⟩
        rcases List.mem_cons.mp hin with rfl | hin
        · exact hnd.1 hk'
        · exact hn.fresh k' (List.mem_cons_of_mem k hk') hin
      · rw [← hw'.wellFormed_eq, ← hr'.text, hs]
    rw [parseMembers, hp]
    simp only [List.head?_cons, ne_eq, not_true_eq_false, if_false, bind, Except.bind, hfresh,
      hsep, List.tail_cons, hval, hsep'.skipWhitespace_of_head (c := valueSeparator) (by decide),
      hm.skipWhitespace_eq hw', hrest]
    rfl

/-- The grammar's derivations of strict data are all found. -/
theorem completeAt (fuel : Nat) : CompleteAt fuel := by
  induction fuel with
  | zero => constructor <;> intros <;> omega
  | succ fuel ih =>
    exact
      { value := parseValue_complete ih
        elements := parseElements_complete ih
        members := parseMembers_complete ih
        emptyArray := fun hw _ ↦ by
          rw [parseArray, hw.skipWhitespace_of_head (by decide)]
          rfl
        array := parseArray_complete ih
        emptyObject := fun hw _ ↦ by
          rw [parseObject, hw.skipWhitespace_of_head (by decide)]
          rfl
        object := parseObject_complete ih }

/-- A text of the grammar with strict data is accepted with that data. -/
theorem parseText_complete {text : JsString} {v : Json} (hw : wellFormed text = true)
    (h : IsText text v) (hv : v.Strict) : parseText text = .ok v := by
  obtain ⟨s, t, hs, hval, ht⟩ := h
  have hp := (completeAt (3 * text.length + 1)).value hs hval hv (hs.wellFormed_eq ▸ hw)
    (endsToken_of_ws_nil ht) (Nat.lt_succ_self _)
  have hskip : skipWhitespace t = [] := by
    rw [ht.skipWhitespace_eq]
    rfl
  rw [parseText, hp]
  simp [bind, Except.bind, hskip]

/-- An accepted text is a well-formed text of the grammar, and its data is strict. -/
theorem parseText_sound {text : JsString} {v : Json} (h : parseText text = .ok v) :
    wellFormed text = true ∧ IsText text v ∧ v.Strict := by
  obtain ⟨⟨v', rest⟩, hp, hk⟩ := bind_eq_ok h
  dsimp only at hk
  split at hk
  · cases hk
  · next hrest =>
    simp only [ne_eq, Decidable.not_not] at hrest
    obtain rfl := Except.ok.inj hk
    obtain ⟨u, hu, hval, hst, hr⟩ := (soundAt _).value hp
    have hend : Ws rest [] := hrest ▸ ws_skipWhitespace rest
    exact ⟨by rw [hr.text, hend.wellFormed_eq]; rfl, ⟨u, rest, hu, hval, hend⟩, hst⟩

theorem failsStrictly_parseText (text : JsString) : FailsStrictly (parseText text) := by
  unfold parseText
  refine failsStrictly_bind ((strictAt _).value text (Nat.lt_succ_self _)) fun p _ ↦ ?_
  dsimp only
  split
  · exact failsStrictly_fail _ _ _
  · exact failsStrictly_ok _

theorem parseJsonStrict_eq_ok_iff {text : JsString} {v : Json} :
    parseJsonStrict text = .ok v ↔ parseText text = .ok v := by
  unfold parseJsonStrict
  cases parseText text <;> simp [Except.mapError]

/-- A value is returned exactly for a well-formed text of it, when it is strict. -/
theorem parseJsonStrict_ok_iff {text : JsString} {v : Json} :
    parseJsonStrict text = .ok v ↔ wellFormed text = true ∧ IsText text v ∧ v.Strict := by
  rw [parseJsonStrict_eq_ok_iff]
  exact ⟨parseText_sound, fun h ↦ parseText_complete h.1 h.2.1 h.2.2⟩

/-- `parseJsonStrict` returns the value that the grammar denotes when the text is well formed
and the value is strict, and throws a `StrictJsonError` on every other text. -/
theorem parseJsonStrict_correct (text : JsString) :
    (∀ v, parseJsonStrict text = .ok v ↔
      wellFormed text = true ∧ IsText text v ∧ v.Strict) ∧
    ((¬∃ v, wellFormed text = true ∧ IsText text v ∧ v.Strict) →
      ∃ error, parseJsonStrict text = .error (.strictJson error)) := by
  refine ⟨fun _ ↦ parseJsonStrict_ok_iff, fun hno ↦ ?_⟩
  cases hp : parseText text with
  | ok v => exact absurd ⟨v, parseText_sound hp⟩ hno
  | error f =>
    have hf := failsStrictly_parseText text f hp
    cases f with
    | strictJson code message remaining =>
      rw [parseJsonStrict, hp]
      exact ⟨_, rfl⟩
    | typeError message => cases hf
    | fuel => cases hf

end TimeProofs.Json
