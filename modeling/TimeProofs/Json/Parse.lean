import TimeProofs.Core.Builders

/-!
# `JSON.parse`

The parser of ECMAScript. It reads the same grammar as the strict one, but it also returns what the
strict profile does not admit: strings with lone surrogates, numbers beyond the doubles, and objects
of a text that repeats a name, which keep the last value. A function returns nothing where
ECMAScript throws a `SyntaxError`.
-/

namespace TimeProofs.Json

open TimeProofs.Base TimeProofs.Core

/-- The object with the members of a text: a repeated name keeps its place and takes its last
value. -/
def objectOf (members : Members) : Members := members.foldl (fun ms m ↦ setMember ms m.1 m.2) []

mutual

/-- What `JSON.parse` makes of the data that a text denotes. -/
def held : Json → Json
  | .arr items => .arr (heldItems items)
  | .obj members => .obj (objectOf (heldMembers members))
  | v => v

/-- `held` of every array element. -/
def heldItems : List Json → List Json
  | [] => []
  | v :: rest => held v :: heldItems rest

/-- `held` of every member's value. -/
def heldMembers : Members → Members
  | [] => []
  | (key, v) :: rest => (key, held v) :: heldMembers rest

end

/-- The rest of a string after its opening quotation mark. -/
def readChars : JsString → Option (JsString × JsString)
  | [] => none
  | c :: s =>
    if c = quotationMark then some ([], s)
    else if c = backslash then
      match s with
      | [] => none
      | e :: s =>
        match simpleEscape e with
        | some c => (readChars s).map fun p ↦ (c :: p.1, p.2)
        | none =>
          if e = letterU then
            match s with
            | a :: b :: c :: d :: s =>
              if isHexDigit a && isHexDigit b && isHexDigit c && isHexDigit d then
                (readChars s).map fun p ↦ (hexUnit a b c d :: p.1, p.2)
              else none
            | _ => none
          else none
    else if c.toNat < 0x20 then none
    else (readChars s).map fun p ↦ (c :: p.1, p.2)

/-- The text after a number. -/
def scanNumber (s : JsString) : Option JsString := do
  let s ← (scanInt (if s.head? = some minusSign then s.tail else s)).toOption
  let s ← (scanFrac s).toOption
  (scanExp s).toOption

/-- A number. -/
def readNumber (start : JsString) : Option (Json × JsString) :=
  (scanNumber start).map fun s ↦ (.num (numberOf (start.take (start.length - s.length))), s)

mutual

/-- A value, after whitespace. -/
def readValue : Nat → JsString → Option (Json × JsString)
  | 0, _ => none
  | fuel + 1, s =>
    match skipWhitespace s with
    | [] => none
    | c :: rest =>
      if c = quotationMark then (readChars rest).map fun p ↦ (.str p.1, p.2)
      else if c = beginObject then readObject fuel (skipWhitespace rest)
      else if c = beginArray then readArray fuel (skipWhitespace rest)
      else if c = 0x74 then (parseKeyword "true" (.bool true) (c :: rest)).toOption
      else if c = 0x66 then (parseKeyword "false" (.bool false) (c :: rest)).toOption
      else if c = 0x6E then (parseKeyword "null" .null (c :: rest)).toOption
      else if c = minusSign || isDigit c then readNumber (c :: rest)
      else none

/-- An array after its bracket. -/
def readArray : Nat → JsString → Option (Json × JsString)
  | 0, _ => none
  | fuel + 1, s =>
    if s.head? = some endArray then some (.arr [], s.tail)
    else (readElements fuel s).map fun p ↦ (.arr p.1, p.2)

/-- The elements of an array, to its closing bracket. -/
def readElements : Nat → JsString → Option (List Json × JsString)
  | 0, _ => none
  | fuel + 1, s => do
    let (v, s) ← readValue fuel s
    let s := skipWhitespace s
    if s.head? = some endArray then some ([v], s.tail)
    else if s.head? = some valueSeparator then
      (readElements fuel (skipWhitespace s.tail)).map fun p ↦ (v :: p.1, p.2)
    else none

/-- An object after its brace. -/
def readObject : Nat → JsString → Option (Json × JsString)
  | 0, _ => none
  | fuel + 1, s =>
    if s.head? = some endObject then some (.obj [], s.tail)
    else (readMembers fuel s).map fun p ↦ (.obj (objectOf p.1), p.2)

/-- The members of an object, to its closing brace. -/
def readMembers : Nat → JsString → Option (Members × JsString)
  | 0, _ => none
  | fuel + 1, s =>
    if s.head? = some quotationMark then do
      let (key, s) ← readChars s.tail
      let s := skipWhitespace s
      if s.head? = some nameSeparator then do
        let (v, s) ← readValue fuel (skipWhitespace s.tail)
        let s := skipWhitespace s
        if s.head? = some endObject then some ([(key, v)], s.tail)
        else if s.head? = some valueSeparator then
          (readMembers fuel (skipWhitespace s.tail)).map fun p ↦ ((key, v) :: p.1, p.2)
        else none
      else none
    else none

end

/-- `JSON.parse(text)`. -/
def parse (text : JsString) : Option Json := do
  let (v, rest) ← readValue (3 * text.length + 1) text
  if skipWhitespace rest = [] then some v else none

theorem heldItems_eq_map (items : List Json) : heldItems items = items.map held := by
  induction items with
  | nil => rfl
  | cons v rest ih => rw [heldItems, ih, List.map_cons]

theorem heldMembers_eq_map (members : Members) :
    heldMembers members = members.map fun m ↦ (m.1, held m.2) := by
  induction members with
  | nil => rfl
  | cons m rest ih => rw [heldMembers, ih, List.map_cons]

theorem held_arr (items : List Json) : held (.arr items) = .arr (items.map held) := by
  rw [held, heldItems_eq_map]

theorem held_obj (members : Members) :
    held (.obj members) = .obj (objectOf (members.map fun m ↦ (m.1, held m.2))) := by
  rw [held, heldMembers_eq_map]

theorem setMember_of_not_mem {ms : Members} {key : JsString} (h : key ∉ ms.map Prod.fst)
    (v : Json) : setMember ms key v = ms ++ [(key, v)] := by
  induction ms with
  | nil => rfl
  | cons m rest ih =>
    obtain ⟨name, w⟩ := m
    rw [List.map_cons, List.mem_cons, not_or] at h
    rw [setMember, if_neg (Ne.symm h.1), ih h.2, List.cons_append]

/-- Distinct names are kept as they are. -/
theorem objectOf_of_nodup {ms : Members} (h : (ms.map Prod.fst).Nodup) : objectOf ms = ms := by
  have hfold (done ms : Members) (h : ((done ++ ms).map Prod.fst).Nodup) :
      ms.foldl (fun ms m ↦ setMember ms m.1 m.2) done = done ++ ms := by
    induction ms generalizing done with
    | nil => rw [List.foldl_nil, List.append_nil]
    | cons m rest ih =>
      have hnew : m.1 ∉ done.map Prod.fst := by
        rw [List.map_append, List.map_cons, List.nodup_append] at h
        exact fun hm ↦ h.2.2 _ hm _ List.mem_cons_self rfl
      rw [List.foldl_cons, setMember_of_not_mem hnew, ih, List.append_assoc, List.singleton_append]
      rwa [List.append_assoc, List.singleton_append]
  exact hfold [] ms h

/-- Data without repeated names is held as it is. -/
theorem held_of_unique {v : Json} (h : v.UniqueKeys) : held v = v := by
  induction v using Json.induct with
  | arr items ih =>
    rw [Json.UniqueKeys, Json.all_arr] at h
    rw [held_arr]
    exact congrArg Json.arr ((List.map_congr_left fun v hv ↦ ih v hv (h v hv)).trans items.map_id)
  | obj ms ih =>
    rw [Json.UniqueKeys, Json.all_obj] at h
    have hmap : (ms.map fun m ↦ (m.1, held m.2)) = ms :=
      (List.map_congr_left fun m hm ↦ congrArg (Prod.mk m.1) (ih m hm (h.2 m hm))).trans ms.map_id
    rw [held_obj, hmap, objectOf_of_nodup h.1]
  | _ => rfl

theorem Chars.shorter {s d t : JsString} (h : Chars s d t) : t.length < s.length := by
  induction h with
  | close rest => exact Nat.lt_succ_self _
  | unescaped _ _ _ _ ih => exact Nat.lt_succ_of_lt ih
  | simple _ _ ih => exact Nat.lt_succ_of_lt (Nat.lt_succ_of_lt ih)
  | unicode _ _ _ _ _ ih =>
    simp only [List.length_cons]
    omega

theorem readChars_complete {s d t : JsString} (h : Chars s d t) :
    readChars s = some (d, t) := by
  induction h with
  | close rest =>
    rw [readChars.eq_def]
    exact if_pos rfl
  | @unescaped c s d t hc hq hb _ ih =>
    rw [readChars.eq_def]
    simp only [if_neg hq, if_neg hb, if_neg (Nat.not_lt.mpr hc), ih, Option.map_some]
  | @simple e c s d t he _ ih =>
    rw [readChars.eq_def]
    simp only [(by decide : backslash ≠ quotationMark), if_false, if_true, he, ih, Option.map_some]
  | @unicode a b c e s d t ha hb hc he _ ih =>
    rw [readChars.eq_def]
    simp only [(by decide : backslash ≠ quotationMark), if_false, if_true, simpleEscape_letterU,
      ha, hb, hc, he, Bool.and_self, ih, Option.map_some]

theorem readChars_sound {s d t : JsString} (h : readChars s = some (d, t)) : Chars s d t := by
  fun_induction readChars s generalizing d with
  | case2 rest =>
    cases h
    exact .close _
  | case4 e s c he hq ih =>
    obtain ⟨⟨d', t'⟩, hp, heq⟩ := Option.map_eq_some_iff.mp h
    cases heq
    exact .simple he (ih hp)
  | case5 a b c e s hhex hq he ih =>
    obtain ⟨⟨d', t'⟩, hp, heq⟩ := Option.map_eq_some_iff.mp h
    cases heq
    simp only [Bool.and_eq_true] at hhex
    exact .unicode hhex.1.1.1 hhex.1.1.2 hhex.1.2 hhex.2 (ih hp)
  | case10 c s hq hb hc ih =>
    obtain ⟨⟨d', t'⟩, hp, heq⟩ := Option.map_eq_some_iff.mp h
    cases heq
    exact .unescaped (Nat.le_of_not_lt hc) hq hb (ih hp)
  | _ => cases h

theorem scanNumber_complete {raw t : JsString} (hn : IsNumber raw) (ht : EndsToken t) :
    scanNumber (raw ++ t) = some t := by
  have scan {int frac exp : JsString} (hi : IsInt int) (hf : IsFrac frac) (he : IsExp exp) :
      ((scanInt (int ++ frac ++ exp ++ t)).toOption.bind fun s ↦
        (scanFrac s).toOption.bind fun s ↦ (scanExp s).toOption) = some t := by
    obtain ⟨hfd, hed, hep⟩ := endsToken_facts ht hf he
    rw [List.append_assoc, List.append_assoc, scanInt_complete hi hfd]
    simp only [Except.toOption, Option.bind_some, scanFrac_complete hf hed hep,
      scanExp_complete he ht]
  cases hn with
  | positive int frac exp hi hf he =>
    have hm : (int ++ frac ++ exp ++ t).head? ≠ some minusSign := by
      cases hi with
      | zero => exact (by decide : ¬some zeroDigit = some minusSign)
      | digits d ds hd =>
        intro h
        obtain rfl := Option.some.inj h
        exact absurd hd (by decide)
    rw [scanNumber, if_neg hm]
    exact scan hi hf he
  | negative int frac exp hi hf he => exact scan hi hf he

theorem scanNumber_sound {s t : JsString} (h : scanNumber s = some t) :
    ∃ raw, s = raw ++ t ∧ IsNumber raw := by
  have of_toOption {r : Parse JsString} {u : JsString} (h : r.toOption = some u) : r = .ok u := by
    cases r with
    | ok => exact congrArg Except.ok (Option.some.inj h)
    | error => cases h
  obtain ⟨s₁, h₁, h⟩ := Option.bind_eq_some_iff.mp h
  obtain ⟨s₂, h₂, h₃⟩ := Option.bind_eq_some_iff.mp h
  obtain ⟨int, hint, hi⟩ := scanInt_sound (of_toOption h₁)
  obtain ⟨frac, rfl, hf⟩ := scanFrac_sound (of_toOption h₂)
  obtain ⟨exp, rfl, he⟩ := scanExp_sound (of_toOption h₃)
  split at hint
  · next hm =>
    obtain ⟨rest, rfl⟩ := List.head?_eq_some_iff.mp hm
    rw [List.tail_cons] at hint
    exact ⟨minusSign :: (int ++ frac ++ exp), by simp [hint], .negative int frac exp hi hf he⟩
  · exact ⟨int ++ frac ++ exp, by simp [hint], .positive int frac exp hi hf he⟩

theorem readNumber_eq {raw t : JsString} (h : scanNumber (raw ++ t) = some t) :
    readNumber (raw ++ t) = some (.num (numberOf raw), t) := by
  rw [readNumber, h, Option.map_some, List.length_append, Nat.add_sub_cancel, List.take_left]

theorem readNumber_sound {s t : JsString} {v : Json} (h : readNumber s = some (v, t)) :
    ∃ raw, s = raw ++ t ∧ IsNumber raw ∧ v = .num (numberOf raw) := by
  obtain ⟨rest, hscan, heq⟩ := Option.map_eq_some_iff.mp h
  obtain ⟨raw, rfl, hn⟩ := scanNumber_sound hscan
  rw [readNumber_eq hscan] at h
  cases h
  exact ⟨raw, rfl, hn, rfl⟩

theorem parseKeyword_toOption {keyword : String} {value v : Json} {s t : JsString}
    (h : (parseKeyword keyword value s).toOption = some (v, t)) :
    s = js keyword ++ t ∧ v = value := by
  cases hk : parseKeyword keyword value s with
  | ok p =>
    rw [hk] at h
    cases h
    exact parseKeyword_sound hk
  | error fault =>
    rw [hk] at h
    cases h

/-! ### Soundness -/

/-- What the reading functions return with a given fuel is denoted by the text they consume. -/
structure ReadsSound (fuel : Nat) : Prop where
  value : ∀ {s v t}, readValue fuel s = some (v, t) →
    ∃ u w, Ws s u ∧ Value u w t ∧ held w = v
  array : ∀ {s u v t}, Ws s u → readArray fuel u = some (v, t) →
    ∃ w, Value (beginArray :: s) w t ∧ held w = v
  elements : ∀ {s items t}, readElements fuel s = some (items, t) →
    ∃ u ws, Ws s u ∧ Elements u ws t ∧ ws.map held = items
  object : ∀ {s u v t}, Ws s u → readObject fuel u = some (v, t) →
    ∃ w, Value (beginObject :: s) w t ∧ held w = v
  members : ∀ {s ms t}, readMembers fuel s = some (ms, t) →
    ∃ ws, MemberList s ws t ∧ (ws.map fun m ↦ (m.1, held m.2)) = ms

variable {fuel : Nat} {p s t u : JsString} {v : Json} {items : List Json} {ms : Members}

theorem readValue_sound (ih : ReadsSound fuel) (h : readValue (fuel + 1) s = some (v, t)) :
    ∃ u w, Ws s u ∧ Value u w t ∧ held w = v := by
  refine ⟨skipWhitespace s, ?_⟩
  have hw := ws_skipWhitespace s
  rw [readValue] at h
  suffices hv : ∃ w, Value (skipWhitespace s) w t ∧ held w = v from
    hv.elim fun w hv ↦ ⟨w, hw, hv⟩
  cases hs : skipWhitespace s with
  | nil =>
    rw [hs] at h
    cases h
  | cons c rest =>
    simp only [hs] at h
    split at h
    · next hc =>
      obtain ⟨⟨d, t'⟩, hchars, heq⟩ := Option.map_eq_some_iff.mp h
      cases heq
      exact ⟨.str d, hc ▸ .string (readChars_sound hchars), rfl⟩
    split at h
    · next hc => exact hc ▸ ih.object (ws_skipWhitespace rest) h
    split at h
    · next hc => exact hc ▸ ih.array (ws_skipWhitespace rest) h
    split at h
    · obtain ⟨he, rfl⟩ := parseKeyword_toOption h
      rw [he]
      exact ⟨_, .trueLiteral t, rfl⟩
    split at h
    · obtain ⟨he, rfl⟩ := parseKeyword_toOption h
      rw [he]
      exact ⟨_, .falseLiteral t, rfl⟩
    split at h
    · obtain ⟨he, rfl⟩ := parseKeyword_toOption h
      rw [he]
      exact ⟨_, .nullLiteral t, rfl⟩
    split at h
    · obtain ⟨raw, he, hn, rfl⟩ := readNumber_sound h
      rw [he]
      exact ⟨_, .number t hn, rfl⟩
    · cases h

theorem readArray_sound (ih : ReadsSound fuel) (hw : Ws s u)
    (h : readArray (fuel + 1) u = some (v, t)) :
    ∃ w, Value (beginArray :: s) w t ∧ held w = v := by
  rw [readArray] at h
  split at h
  · next hc =>
    obtain ⟨rest, rfl⟩ := List.head?_eq_some_iff.mp hc
    cases h
    exact ⟨.arr [], .emptyArray hw, rfl⟩
  · obtain ⟨⟨items, t'⟩, he, heq⟩ := Option.map_eq_some_iff.mp h
    cases heq
    obtain ⟨x, ws, hx, hel, rfl⟩ := ih.elements he
    exact ⟨.arr ws, .array (hw.trans hx) hel, held_arr ws⟩

theorem readElements_sound (ih : ReadsSound fuel)
    (h : readElements (fuel + 1) s = some (items, t)) :
    ∃ u ws, Ws s u ∧ Elements u ws t ∧ ws.map held = items := by
  rw [readElements] at h
  obtain ⟨⟨v, s₁⟩, hv, h⟩ := Option.bind_eq_some_iff.mp h
  obtain ⟨u, w, hu, hval, rfl⟩ := ih.value hv
  dsimp only at h
  refine ⟨u, ?_⟩
  split at h
  · next hc =>
    cases h
    exact ⟨[w], hu, .last hval (ws_of_head hc), rfl⟩
  split at h
  · next hc =>
    obtain ⟨⟨items', t'⟩, he, heq⟩ := Option.map_eq_some_iff.mp h
    cases heq
    obtain ⟨x, ws, hx, hel, rfl⟩ := ih.elements he
    exact ⟨w :: ws, hu, .more hval (ws_of_head hc) ((ws_skipWhitespace _).trans hx) hel, rfl⟩
  · cases h

theorem readObject_sound (ih : ReadsSound fuel) (hw : Ws s u)
    (h : readObject (fuel + 1) u = some (v, t)) :
    ∃ w, Value (beginObject :: s) w t ∧ held w = v := by
  rw [readObject] at h
  split at h
  · next hc =>
    obtain ⟨rest, rfl⟩ := List.head?_eq_some_iff.mp hc
    cases h
    exact ⟨.obj [], .emptyObject hw, rfl⟩
  · obtain ⟨⟨ms, t'⟩, he, heq⟩ := Option.map_eq_some_iff.mp h
    cases heq
    obtain ⟨ws, hms, rfl⟩ := ih.members he
    exact ⟨.obj ws, .object hw hms, held_obj ws⟩

theorem readMembers_sound (ih : ReadsSound fuel) (h : readMembers (fuel + 1) s = some (ms, t)) :
    ∃ ws, MemberList s ws t ∧ (ws.map fun m ↦ (m.1, held m.2)) = ms := by
  rw [readMembers] at h
  split at h
  · next hq =>
    obtain ⟨s, rfl⟩ := List.head?_eq_some_iff.mp hq
    obtain ⟨⟨key, s₁⟩, hkey, h⟩ := Option.bind_eq_some_iff.mp h
    have hchars := readChars_sound hkey
    dsimp only at h
    split at h
    · next hcolon =>
      obtain ⟨⟨v, s₂⟩, hv, h⟩ := Option.bind_eq_some_iff.mp h
      obtain ⟨u, w, hu, hval, rfl⟩ := ih.value hv
      have hws := (ws_skipWhitespace _).trans hu
      dsimp only at h
      split at h
      · next hc =>
        cases h
        exact ⟨[(key, w)], .last hchars (ws_of_head hcolon) hws hval (ws_of_head hc), rfl⟩
      split at h
      · next hc =>
        obtain ⟨⟨ms', t'⟩, he, heq⟩ := Option.map_eq_some_iff.mp h
        cases heq
        obtain ⟨ws, hms, rfl⟩ := ih.members he
        exact ⟨(key, w) :: ws, .more hchars (ws_of_head hcolon) hws hval (ws_of_head hc)
          (ws_skipWhitespace _) hms, rfl⟩
      · cases h
    · cases h
  · cases h

theorem readsSound (fuel : Nat) : ReadsSound fuel := by
  induction fuel with
  | zero =>
    constructor
    · intro s v t h
      cases h
    · intro s u v t _ h
      cases h
    · intro s items t h
      cases h
    · intro s u v t _ h
      cases h
    · intro s ms t h
      cases h
  | succ fuel ih =>
    exact
      { value := readValue_sound ih
        array := readArray_sound ih
        elements := readElements_sound ih
        object := readObject_sound ih
        members := readMembers_sound ih }

/-! ### Completeness -/

/-- What the grammar derives, the reading functions return with enough fuel; less text is left. -/
structure ReadsComplete (fuel : Nat) : Prop where
  value : ∀ {p s v t}, Ws p s → Value s v t → EndsToken t → 3 * p.length < fuel →
    readValue fuel p = some (held v, t) ∧ t.length < p.length
  elements : ∀ {s items t}, Elements s items t → 3 * s.length + 1 < fuel →
    readElements fuel s = some (items.map held, t) ∧ t.length < s.length
  members : ∀ {s ms t}, MemberList s ms t → 3 * s.length + 1 < fuel →
    readMembers fuel s = some (ms.map fun m ↦ (m.1, held m.2), t) ∧ t.length < s.length
  array : ∀ {s items t}, Elements s items t → 3 * s.length + 2 < fuel →
    readArray fuel s = some (.arr (items.map held), t) ∧ t.length < s.length
  object : ∀ {s ms t}, MemberList s ms t → 3 * s.length + 2 < fuel →
    readObject fuel s = some (.obj (objectOf (ms.map fun m ↦ (m.1, held m.2))), t) ∧
      t.length < s.length

theorem readArray_complete (ih : ReadsComplete fuel) (he : Elements s items t)
    (hf : 3 * s.length + 2 < fuel + 1) :
    readArray (fuel + 1) s = some (.arr (items.map held), t) ∧ t.length < s.length := by
  obtain ⟨hread, hlt⟩ := ih.elements he (by omega)
  rw [readArray, if_neg he.head_ne, hread]
  exact ⟨rfl, hlt⟩

theorem readObject_complete (ih : ReadsComplete fuel) (hm : MemberList s ms t)
    (hf : 3 * s.length + 2 < fuel + 1) :
    readObject (fuel + 1) s = some (.obj (objectOf (ms.map fun m ↦ (m.1, held m.2))), t) ∧
      t.length < s.length := by
  have hne : s.head? ≠ some endObject := by
    rw [hm.head_eq]
    decide
  obtain ⟨hread, hlt⟩ := ih.members hm (by omega)
  rw [readObject, if_neg hne, hread]
  exact ⟨rfl, hlt⟩

theorem readValue_number {c : CodeUnit} (hs : skipWhitespace p = c :: s)
    (hc : c = minusSign ∨ isDigit c = true) : readValue (fuel + 1) p = readNumber (c :: s) := by
  have hne {d : CodeUnit} (h₁ : d ≠ minusSign) (h₂ : isDigit d = false) : c ≠ d := by
    rintro rfl
    rcases hc with hc | hc
    · exact h₁ hc
    · rw [h₂] at hc
      cases hc
  have hnum : (decide (c = minusSign) || isDigit c) = true := by simpa using hc
  rw [readValue]
  simp only [hs, hne (d := quotationMark) (by decide) (by decide),
    hne (d := beginObject) (by decide) (by decide), hne (d := beginArray) (by decide) (by decide),
    hne (d := 0x74) (by decide) (by decide), hne (d := 0x66) (by decide) (by decide),
    hne (d := 0x6E) (by decide) (by decide), hnum, if_true, if_false]

theorem readValue_complete (ih : ReadsComplete fuel) (hw : Ws p s) (h : Value s v t)
    (ht : EndsToken t) (hf : 3 * p.length < fuel + 1) :
    readValue (fuel + 1) p = some (held v, t) ∧ t.length < p.length := by
  have hskip := skipWhitespace_value hw h
  have hlen := hw.length_le
  have after {raw t : JsString} (hne : raw ≠ []) (hlen : (raw ++ t).length ≤ p.length) :
      t.length < p.length := by
    have hpos := List.length_pos_iff.mpr hne
    rw [List.length_append] at hlen
    omega
  cases h with
  | nullLiteral =>
    rw [readValue, hskip]
    exact ⟨congrArg Except.toOption (parseKeyword_complete "null" .null t), after (by decide) hlen⟩
  | falseLiteral =>
    rw [readValue, hskip]
    exact ⟨congrArg Except.toOption (parseKeyword_complete "false" (.bool false) t),
      after (by decide) hlen⟩
  | trueLiteral =>
    rw [readValue, hskip]
    exact ⟨congrArg Except.toOption (parseKeyword_complete "true" (.bool true) t),
      after (by decide) hlen⟩
  | number t hn =>
    obtain ⟨c, rest, rfl, hc⟩ := hn.head
    rw [readValue_number hskip hc]
    exact ⟨readNumber_eq (scanNumber_complete hn ht), after (List.cons_ne_nil c rest) hlen⟩
  | string hd =>
    have hlt := hd.shorter
    simp only [List.length_cons] at hlen
    rw [readValue]
    simp only [hskip, if_true, readChars_complete hd]
    exact ⟨rfl, by omega⟩
  | @emptyArray s _ hw' =>
    have hlen' := hw'.length_le
    simp only [List.length_cons] at hlen hlen'
    rw [readValue, hskip]
    obtain ⟨fuel, rfl⟩ : ∃ n, fuel = n + 1 := ⟨fuel - 1, by omega⟩
    refine ⟨?_, by omega⟩
    show readArray (fuel + 1) (skipWhitespace s) = some (.arr [], t)
    rw [hw'.skipWhitespace_of_head (by decide)]
    rfl
  | @array s u _ items hw' he =>
    have hlen' := hw'.length_le
    simp only [List.length_cons] at hlen
    obtain ⟨hread, hlt⟩ := ih.array he (by omega)
    rw [readValue, hskip, held_arr]
    refine ⟨?_, by omega⟩
    show readArray fuel (skipWhitespace s) = _
    rw [he.skipWhitespace_eq hw', hread]
  | @emptyObject s _ hw' =>
    have hlen' := hw'.length_le
    simp only [List.length_cons] at hlen hlen'
    rw [readValue, hskip]
    obtain ⟨fuel, rfl⟩ : ∃ n, fuel = n + 1 := ⟨fuel - 1, by omega⟩
    refine ⟨?_, by omega⟩
    show readObject (fuel + 1) (skipWhitespace s) = some (.obj [], t)
    rw [hw'.skipWhitespace_of_head (by decide)]
    rfl
  | @object s u _ ms hw' hm =>
    have hlen' := hw'.length_le
    simp only [List.length_cons] at hlen
    obtain ⟨hread, hlt⟩ := ih.object hm (by omega)
    rw [readValue, hskip, held_obj]
    refine ⟨?_, by omega⟩
    show readObject fuel (skipWhitespace s) = _
    rw [hm.skipWhitespace_eq hw', hread]

theorem readElements_complete (ih : ReadsComplete fuel) (h : Elements s items t)
    (hf : 3 * s.length + 1 < fuel + 1) :
    readElements (fuel + 1) s = some (items.map held, t) ∧ t.length < s.length := by
  cases h with
  | @last _ u _ v hv hw =>
    obtain ⟨hread, hlt⟩ := ih.value (.nil s) hv (endsToken_of_ws hw (by decide)) (by omega)
    have hlen := hw.length_le
    rw [List.length_cons] at hlen
    rw [readElements, hread]
    simp only [Option.bind_eq_bind, Option.bind_some, hw.skipWhitespace_of_head (by decide),
      List.head?_cons, if_true, List.tail_cons]
    exact ⟨rfl, by omega⟩
  | @more _ u w x _ v items hv hw hw' he =>
    obtain ⟨hread, hlt⟩ := ih.value (.nil s) hv (endsToken_of_ws hw (by decide)) (by omega)
    have hlen := hw.length_le
    have hlen' := hw'.length_le
    rw [List.length_cons] at hlen
    obtain ⟨hrest, hlt'⟩ := ih.elements he (by omega)
    rw [readElements, hread]
    simp only [Option.bind_eq_bind, Option.bind_some, hw.skipWhitespace_of_head (by decide),
      List.head?_cons, if_true, List.tail_cons, he.skipWhitespace_eq hw', hrest,
      (by decide : ¬some valueSeparator = some endArray), if_false]
    exact ⟨rfl, by omega⟩

theorem readMembers_complete (ih : ReadsComplete fuel) (h : MemberList s ms t)
    (hf : 3 * s.length + 1 < fuel + 1) :
    readMembers (fuel + 1) s = some (ms.map fun m ↦ (m.1, held m.2), t) ∧ t.length < s.length := by
  have member {s u w x y k : JsString} {v : Json} (hc : Chars s k u)
      (hcolon : Ws u (nameSeparator :: w)) (hw : Ws w x) (hv : Value x v y) (hy : EndsToken y)
      (hf : 3 * (quotationMark :: s).length + 1 < fuel + 1) :
      readValue fuel (skipWhitespace w) = some (held v, y) ∧ y.length + 2 < s.length + 1 := by
    have hlen := hc.shorter
    have hlen' := hcolon.length_le
    have hlen'' := hw.length_le
    simp only [List.length_cons] at hf hlen'
    obtain ⟨hread, hlt⟩ := ih.value (.nil x) hv hy (by omega)
    rw [skipWhitespace_value hw hv]
    exact ⟨hread, by omega⟩
  cases h with
  | @last s u w x y _ k v hc hcolon hw hv hend =>
    obtain ⟨hread, hlt⟩ := member hc hcolon hw hv (endsToken_of_ws hend (by decide)) hf
    have hlen := hend.length_le
    rw [List.length_cons] at hlen ⊢
    rw [readMembers]
    simp only [List.head?_cons, List.tail_cons, if_true, readChars_complete hc,
      Option.bind_eq_bind, Option.bind_some,
      hcolon.skipWhitespace_of_head (c := nameSeparator) (by decide), hread,
      hend.skipWhitespace_of_head (c := endObject) (by decide)]
    exact ⟨rfl, by omega⟩
  | @more s u w x y z a _ k v ms hc hcolon hw hv hsep hw' hm =>
    obtain ⟨hread, hlt⟩ := member hc hcolon hw hv (endsToken_of_ws hsep (by decide)) hf
    have hlen := hsep.length_le
    have hlen' := hw'.length_le
    rw [List.length_cons] at hlen hf ⊢
    obtain ⟨hrest, hlt'⟩ := ih.members hm (by omega)
    rw [readMembers]
    simp only [List.head?_cons, List.tail_cons, if_true, readChars_complete hc,
      Option.bind_eq_bind, Option.bind_some,
      hcolon.skipWhitespace_of_head (c := nameSeparator) (by decide), hread,
      hsep.skipWhitespace_of_head (c := valueSeparator) (by decide),
      (by decide : ¬some valueSeparator = some endObject), if_false, hm.skipWhitespace_eq hw',
      hrest]
    exact ⟨rfl, by omega⟩

theorem readsComplete (fuel : Nat) : ReadsComplete fuel := by
  induction fuel with
  | zero => constructor <;> intros <;> omega
  | succ fuel ih =>
    exact
      { value := readValue_complete ih
        elements := readElements_complete ih
        members := readMembers_complete ih
        array := readArray_complete ih
        object := readObject_complete ih }

/-- `JSON.parse` returns a value exactly for the texts of the grammar: the data that the text
denotes, with the last value of every repeated name. -/
theorem parse_eq_some_iff {text : JsString} :
    parse text = some v ↔ ∃ w, IsText text w ∧ held w = v := by
  constructor
  · intro h
    obtain ⟨⟨v', rest⟩, hread, h⟩ := Option.bind_eq_some_iff.mp h
    dsimp only at h
    split at h
    · next hrest =>
      cases h
      obtain ⟨u, w, hu, hval, rfl⟩ := (readsSound _).value hread
      exact ⟨w, ⟨u, rest, hu, hval, hrest ▸ ws_skipWhitespace rest⟩, rfl⟩
    · cases h
  · rintro ⟨w, ⟨s, t, hs, hval, ht⟩, rfl⟩
    obtain ⟨hread, -⟩ := (readsComplete (3 * text.length + 1)).value hs hval
      (endsToken_of_ws_nil ht) (Nat.lt_succ_self _)
    have hskip : skipWhitespace t = [] := ht.skipWhitespace_eq
    rw [parse, hread]
    simp only [Option.bind_eq_bind, Option.bind_some, hskip, if_true]

/-- A text of data without repeated names is parsed to the data. -/
theorem parse_of_unique {text : JsString} (h : IsText text v) (hunique : v.UniqueKeys) :
    parse text = some v :=
  parse_eq_some_iff.mpr ⟨v, h, held_of_unique hunique⟩

end TimeProofs.Json
