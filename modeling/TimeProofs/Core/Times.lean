import TimeProofs.Base.Instant
import TimeProofs.Core.Integrity

/-!
# Timestamps and the rules about them

Which strings `validUtcTimestamp` accepts, and what the three rules that compare timestamps
decide about exact instants: `recorded_at` and `occurred_at` of an event, `valid_from` and
`valid_until` of a key, and the creation of a proof within the validity of its key.
-/

namespace TimeProofs.Core

open TimeProofs.Base TimeProofs.Json

/-- A string is accepted exactly when it is on the calendar, unless it is on the calendar in one
of the years 0 to 99, which `Date.UTC` takes for 1900 to 1999. -/
theorem validUtcTimestamp_calendar_iff (s : JsString) :
    (validUtcTimestamp (some (.str s)) = true ↔ ∃ f, CalendarTimestamp s f) ↔
      ¬∃ f, CalendarTimestamp s f ∧ f.year ≤ 99 := by
  have hvalid : validUtcTimestamp (some (.str s)) = true ↔
      ∃ f, CalendarTimestamp s f ∧ 100 ≤ f.year := validTimestampText_iff_calendar s
  rw [hvalid]
  constructor
  · rintro hiff ⟨f, hf, hyear⟩
    obtain ⟨g, hg, hyear'⟩ := hiff.mpr ⟨f, hf⟩
    have hsame := hf.fields_eq hg
    rw [hsame] at hyear
    omega
  · intro hnone
    constructor
    · rintro ⟨f, hf, -⟩
      exact ⟨f, hf⟩
    · rintro ⟨f, hf⟩
      refine ⟨f, hf, ?_⟩
      by_contra hyear
      exact hnone ⟨f, hf, by omega⟩

/-- The first of January of the year 50 exists and is refused. -/
theorem year50_refused :
    ¬(validUtcTimestamp (some (jsonText "0050-01-01T00:00:00Z")) = true ↔
      ∃ f, CalendarTimestamp (js "0050-01-01T00:00:00Z") f) := by
  have hrefused : validUtcTimestamp (some (jsonText "0050-01-01T00:00:00Z")) = false := by decide
  have hread : readTimestamp (js "0050-01-01T00:00:00Z") = some ⟨50, 1, 1, 0, 0, 0, []⟩ := rfl
  rw [hrefused]
  intro hiff
  have hexists : CalendarTimestamp (js "0050-01-01T00:00:00Z") ⟨50, 1, 1, 0, 0, 0, []⟩ :=
    ⟨readTimestamp_eq_some.mp hread, ⟨by decide, by decide, by decide, by decide⟩,
      ⟨by decide, by decide, by decide⟩⟩
  exact absurd (hiff.mpr ⟨_, hexists⟩) (by decide)

/-- An accepted timestamp denotes an instant. -/
def Denotes (v : Option Json) (x : ℚ) : Prop :=
  ∃ (s : JsString) (f : TimestampFields), v = some (.str s) ∧ validTimestampText s = true ∧
    f.Spells s ∧ f.instant = x

theorem Denotes.valid {v : Option Json} {x : ℚ} (h : Denotes v x) :
    validUtcTimestamp v = true := by
  obtain ⟨s, f, rfl, hvalid, -⟩ := h
  exact hvalid

theorem Denotes.parsed {v : Option Json} {x : ℚ} (h : Denotes v x) :
    ∃ s, v = some (.str s) ∧ validTimestampText s = true ∧
      (readTimestamp s).map parsedTime = some ⌊x⌋ := by
  obtain ⟨s, f, rfl, hvalid, hf, rfl⟩ := h
  refine ⟨s, rfl, hvalid, ?_⟩
  rw [readTimestamp_eq_some.mpr hf, Option.map_some, parsedTime_eq_floor hf]

/-- Timestamps are compared by their whole milliseconds. -/
theorem compareTimestamps_eq {v w : Option Json} {x y : ℚ} (hv : Denotes v x)
    (hw : Denotes w y) : compareTimestamps v w = ⌊x⌋ - ⌊y⌋ := by
  obtain ⟨s, rfl, -, hs⟩ := hv.parsed
  obtain ⟨t, rfl, -, ht⟩ := hw.parsed
  simp only [compareTimestamps, hs, ht, Option.getD_some]

/-- Rounding down agrees with a strict comparison unless the whole parts are the same. -/
theorem floor_lt_iff_lt (x y : ℚ) : (⌊x⌋ < ⌊y⌋ ↔ x < y) ↔ ¬(x < y ∧ ⌊x⌋ = ⌊y⌋) := by
  have hmono : x < y → ⌊x⌋ ≤ ⌊y⌋ := fun h ↦ Int.floor_mono h.le
  have hstrict : ⌊x⌋ < ⌊y⌋ → x < y := fun h ↦ by
    by_contra hle
    exact absurd (Int.floor_mono (not_lt.mp hle)) (not_le.mpr h)
  constructor
  · rintro hiff ⟨hlt, heq⟩
    exact absurd heq (hiff.mpr hlt).ne
  · intro hnot
    refine ⟨hstrict, fun hlt ↦ lt_of_le_of_ne (hmono hlt) fun heq ↦ hnot ⟨hlt, heq⟩⟩

theorem floor_le_iff_le (x y : ℚ) : (⌊x⌋ ≤ ⌊y⌋ ↔ x ≤ y) ↔ ¬(y < x ∧ ⌊y⌋ = ⌊x⌋) := by
  rw [← floor_lt_iff_lt, ← not_lt, ← not_lt, not_iff_not]

/-- A check reports an issue with the given code. -/
abbrev ReportsCode (code : ErrorCode) (c : BundleCheck) : Prop :=
  Check.Reports (fun issue ↦ issue.code = code) c

variable {code : ErrorCode}

theorem reportsCode_flag {condition : Bool} {code' : ErrorCode} {message : String}
    {path : JsString} :
    ReportsCode code (flag condition code' message path) ↔ condition = true ∧ code' = code :=
  Check.reports_issueWhen

theorem code_of_parentDigests {rt : Runtime} {parents : Option Json} {path : JsString}
    (h : ReportsCode code (verifyParentDigests rt parents path)) :
    code = .duplicateParentDigest ∨ code = .eventParentsInvalid := by
  unfold verifyParentDigests repeatedTexts at h
  split at h
  · split at h
    · exact absurd h Check.not_reports_error
    · exact .inl (reportsCode_flag.mp h).2.symm
  · exact .inr (reportsCode_flag.mp h).2.symm

theorem code_of_evidenceRefs {refs : Option Json} {path : JsString}
    (h : ReportsCode code (verifyEvidenceRefs refs path)) :
    code = .duplicateEventEvidenceRef ∨ code = .eventEvidenceRefsInvalid := by
  unfold verifyEvidenceRefs at h
  split at h
  · exact .inl (reportsCode_flag.mp h).2.symm
  · exact .inr (reportsCode_flag.mp h).2.symm

theorem code_of_entityRef {entity : Option Json} {path : JsString} {code' : ErrorCode}
    (h : ReportsCode code (verifyEntityRef entity path code')) :
    code = .entityRefMembersInvalid ∨ code = .entityTypeInvalid ∨ code = .entityIdInvalid ∨
      code = .entityDisplayNameInvalid ∨ code = code' := by
  unfold verifyEntityRef at h
  split at h
  · have h := (Check.reports_all (by simp [flag, requireText])).mp h
    simp only [List.mem_cons, List.not_mem_nil, or_false, exists_eq_or_imp, exists_eq_left,
      requireText, reportsCode_flag] at h
    rcases h with ⟨-, h⟩ | ⟨-, h⟩ | ⟨-, h⟩ | ⟨-, h⟩
    · exact .inl h.symm
    · exact .inr (.inl h.symm)
    · exact .inr (.inr (.inl h.symm))
    · exact .inr (.inr (.inr (.inl h.symm)))
  · exact .inr (.inr (.inr (.inr (reportsCode_flag.mp h).2.symm)))

theorem code_of_pattern {rt : Runtime} {pattern : Regex CodeUnit} {v : Option Json}
    {code' : ErrorCode} {message : String} {path : JsString}
    (h : ReportsCode code (requirePattern rt pattern v code' message path)) : code = code' := by
  unfold requirePattern at h
  split at h
  · exact absurd h Check.not_reports_error
  · exact (reportsCode_flag.mp h).2.symm

theorem code_of_objectDigest {rt : Runtime} {object : Members} {path : JsString}
    (h : ReportsCode code (verifyObjectDigest rt object path)) :
    code = .objectDigestInvalid ∨ code = .objectDigestCalculationFailed ∨
      code = .objectDigestMismatch := by
  unfold verifyObjectDigest at h
  split at h
  · exact .inl (reportsCode_flag.mp h).2.symm
  · split at h
    · obtain ⟨issue, hissue, rfl⟩ := Check.reports_ok.mp h
      rw [List.mem_singleton.mp hissue]
      exact .inr (.inl rfl)
    · exact .inr (.inr (Check.reports_issueWhen.mp h).2.symm)

/-- The codes of the vocabulary rules. -/
def vocabularyCodes : List ErrorCode :=
  [.eventPhaseStatusInvalid, .eventSourcePhaseInvalid, .eventTypePhaseMismatch,
    .eventTypeStatusMismatch, .eventTypeReservedUnregistered, .eventTypeUnregistered]

theorem code_of_phaseIssues {phase status sourceClass : JsString} {issue : VocabularyIssue}
    (h : issue ∈ phaseIssues phase status sourceClass) : issue.code ∈ vocabularyCodes := by
  unfold phaseIssues at h
  rcases List.mem_append.mp h with h | h
  · split at h
    · split at h
      · exact absurd h List.not_mem_nil
      · rw [List.mem_singleton.mp h]
        simp [vocabularyCodes]
    · exact absurd h List.not_mem_nil
  · split at h
    · split at h
      · exact absurd h List.not_mem_nil
      · rw [List.mem_singleton.mp h]
        simp [vocabularyCodes]
    · exact absurd h List.not_mem_nil

theorem code_of_ruleIssues {rule : EventTypeRule} {eventType phase status : JsString}
    {issue : VocabularyIssue} (h : issue ∈ ruleIssues rule eventType phase status) :
    issue.code ∈ vocabularyCodes := by
  unfold ruleIssues at h
  rcases List.mem_append.mp h with h | h
  · split at h
    · exact absurd h List.not_mem_nil
    · rw [List.mem_singleton.mp h]
      simp [vocabularyCodes]
  · split at h
    · exact absurd h List.not_mem_nil
    · rw [List.mem_singleton.mp h]
      simp [vocabularyCodes]

theorem code_of_validateEventVocabulary {eventType : Option Json}
    {typeText phase status sourceClass : JsString} {issues : List VocabularyIssue}
    (h : validateEventVocabulary eventType typeText phase status sourceClass = .ok issues)
    {issue : VocabularyIssue} (hissue : issue ∈ issues) : issue.code ∈ vocabularyCodes := by
  unfold validateEventVocabulary at h
  split at h
  · cases h
    rcases List.mem_append.mp hissue with hissue | hissue
    · exact code_of_phaseIssues hissue
    · exact code_of_ruleIssues hissue
  · split at h
    · cases h
    · cases h
      rcases List.mem_append.mp hissue with hissue | hissue
      · exact code_of_phaseIssues hissue
      · rw [List.mem_singleton.mp hissue]
        simp [vocabularyCodes]
    · split at h
      · cases h
        exact code_of_phaseIssues hissue
      · cases h
        rcases List.mem_append.mp hissue with hissue | hissue
        · exact code_of_phaseIssues hissue
        · rw [List.mem_singleton.mp hissue]
          simp [vocabularyCodes]

theorem code_of_eventVocabulary {rt : Runtime} {members : Members} {path : JsString}
    (h : ReportsCode code (verifyEventVocabulary rt members path)) : code ∈ vocabularyCodes := by
  unfold verifyEventVocabulary at h
  dsimp only at h
  split at h
  · split at h
    · exact absurd h Check.not_reports_error
    · split at h
      · split at h
        · exact absurd h Check.not_reports_error
        · next issues hissues =>
          obtain ⟨issue, hissue, rfl⟩ := Check.reports_ok.mp h
          obtain ⟨found, hfound, rfl⟩ := List.mem_map.mp hissue
          exact code_of_validateEventVocabulary hissues hfound
      · obtain ⟨issue, hissue, -⟩ := Check.reports_ok.mp h
        exact absurd hissue List.not_mem_nil
  · obtain ⟨issue, hissue, -⟩ := Check.reports_ok.mp h
    exact absurd hissue List.not_mem_nil

/-! ### What the rules decide -/

/-- An event is reported as recorded before it occurred when its milliseconds say so. -/
theorem reports_recordedBefore {rt : Runtime} {issuerIds : List JsString} {members : Members}
    {path : JsString} {occurred recorded : ℚ}
    (hoccurred : Denotes (member members (js "occurred_at")) occurred)
    (hrecorded : Denotes (member members (js "recorded_at")) recorded)
    (hreturns : Returns (verifyEvent rt issuerIds (.obj members) path)) :
    ReportsCode .eventRecordedBeforeOccurred (verifyEvent rt issuerIds (.obj members) path) ↔
      ⌊recorded⌋ < ⌊occurred⌋ := by
  have htext : ¬ReportsCode .eventRecordedBeforeOccurred
      (Check.all (eventTextMembers.map fun name ↦
        requireText members name .eventRequiredMemberInvalid
          (name ++ " must be a non-empty string.") path)) := by
    rw [ReportsCode, Check.reports_all (by simp [flag, requireText])]
    rintro ⟨c, hc, hreports⟩
    obtain ⟨name, -, rfl⟩ := List.mem_map.mp hc
    exact absurd (reportsCode_flag.mp hreports).2 (by decide)
  have hpattern {v : Option Json} {path : JsString} :
      ¬ReportsCode .eventRecordedBeforeOccurred (requirePattern rt eventTypePattern v
        .eventTypeInvalid "event_type must use a lower-case namespaced token." path) :=
    fun h ↦ absurd (code_of_pattern h) (by decide)
  have hparents {v : Option Json} :
      ¬ReportsCode .eventRecordedBeforeOccurred (verifyParentDigests rt v path) :=
    fun h ↦ absurd (code_of_parentDigests h) (by decide)
  have hrefs {v : Option Json} :
      ¬ReportsCode .eventRecordedBeforeOccurred (verifyEvidenceRefs v path) :=
    fun h ↦ absurd (code_of_evidenceRefs h) (by decide)
  have hactor {v : Option Json} {path : JsString} :
      ¬ReportsCode .eventRecordedBeforeOccurred (verifyEntityRef v path .eventActorInvalid) :=
    fun h ↦ absurd (code_of_entityRef h) (by decide)
  have hsubject {v : Option Json} {path : JsString} :
      ¬ReportsCode .eventRecordedBeforeOccurred (verifyEntityRef v path .eventSubjectInvalid) :=
    fun h ↦ absurd (code_of_entityRef h) (by decide)
  have hvocabulary :
      ¬ReportsCode .eventRecordedBeforeOccurred (verifyEventVocabulary rt members path) :=
    fun h ↦ absurd (code_of_eventVocabulary h) (by decide)
  have hdigest : ¬ReportsCode .eventRecordedBeforeOccurred (verifyObjectDigest rt members path) :=
    fun h ↦ absurd (code_of_objectDigest h) (by decide)
  rw [ReportsCode, verifyEvent, Check.reports_all hreturns]
  simp only [List.mem_cons, List.not_mem_nil, or_false, exists_eq_or_imp, exists_eq_left]
  simp only [requireObject, reportsCode_flag, htext, hpattern, hparents, hrefs, hactor, hsubject,
    hvocabulary, hdigest, reduceCtorEq, and_false, false_or, or_false, and_true,
    hoccurred.valid, hrecorded.valid, Bool.true_and, decide_eq_true_eq,
    compareTimestamps_eq hrecorded hoccurred]
  omega

/-- A key is reported for its validity interval when its milliseconds are out of order. -/
theorem reports_validityInterval {members : Members} {path : JsString} {index : Nat}
    {lower upper : ℚ} (hlower : Denotes (member members (js "valid_from")) lower)
    (hupper : Denotes (member members (js "valid_until")) upper) :
    ReportsCode .keyValidityIntervalInvalid (verifyKey path index (.obj members)) ↔
      ⌊upper⌋ ≤ ⌊lower⌋ := by
  have hreturns : Returns (verifyKey path index (.obj members)) := by
    simp [verifyKey, flag, requireText]
  rw [ReportsCode, verifyKey, Check.reports_all hreturns]
  simp only [List.mem_cons, List.not_mem_nil, or_false, exists_eq_or_imp, exists_eq_left]
  simp only [requireText, reportsCode_flag, reduceCtorEq, and_false, false_or, or_false, and_true,
    hlower.valid, hupper.valid, Bool.true_and, decide_eq_true_eq,
    compareTimestamps_eq hupper hlower]
  omega

/-- A bound of a key's validity: no such member, or a timestamp. -/
inductive Bound (v : Option Json) : Option ℚ → Prop
  | absent : v = none → Bound v none
  | present {x : ℚ} : Denotes v x → Bound v (some x)

/-- An instant lies outside the closed interval between two bounds. -/
def Outside (lower upper : Option ℚ) (x : ℚ) : Prop :=
  (∃ b ∈ lower, x < b) ∨ ∃ b ∈ upper, b < x

/-- An instant lies outside an interval, but within the millisecond of each bound it violates. -/
structure JustOutside (lower upper : Option ℚ) (x : ℚ) : Prop where
  outside : Outside lower upper x
  lower_eq : ∀ b ∈ lower, x < b → ⌊x⌋ = ⌊b⌋
  upper_eq : ∀ b ∈ upper, b < x → ⌊b⌋ = ⌊x⌋

/-- A proof is rejected on the validity of its key. -/
def RejectedOnValidity (r : Except Thrown SignatureCheck) : Prop :=
  ∃ detail, r = .ok (.invalid .proofCreatedBeforeKeyValidity detail) ∨
    r = .ok (.invalid .proofCreatedAfterKeyValidity detail)

/-- The bound that is read excludes the times that its comparison excludes. -/
theorem outsideBound_eq {rt : Runtime} {v createdAt : Option Json} {b : Option ℚ} {x : ℚ}
    (hb : Bound v b) (hx : Denotes createdAt x) (excludes : Option Int → Option Int → Bool) :
    outsideBound rt v createdAt excludes =
      .ok (b.elim false fun y ↦ excludes (some ⌊x⌋) (some ⌊y⌋)) := by
  cases hb with
  | absent h =>
    subst h
    rfl
  | present hy =>
    obtain ⟨s, rfl, hs, hparsed⟩ := hx.parsed
    obtain ⟨t, rfl, ht, hparsed'⟩ := hy.parsed
    have hne : t ≠ [] := by
      rintro rfl
      cases ht
    have htruthy : truthy (some (.str t)) = true := by simpa [truthy] using hne
    rw [outsideBound, if_pos htruthy]
    simp only [dateParseOf, textOf, toText, Except.map, dateParse, hs, ht, if_true, hparsed,
      hparsed', bind, Except.bind, Option.elim_some]

theorem not_rejectedOnValidity_checkSignature {rt : Runtime} {payload proof : Members}
    {key : Json} : ¬RejectedOnValidity (.ok (checkSignature rt payload proof key)) := by
  rintro ⟨detail, h | h⟩
  all_goals
    have h := Except.ok.inj h
    unfold checkSignature at h
    dsimp only at h
    split at h
    · cases h
    split at h
    · cases h
    split at h
    · cases h
    split at h
    · cases h
    split at h
    · cases h
    · cases h
    · cases h

/-- A proof under a supported key is rejected on validity when the milliseconds say so. -/
theorem rejectedOnValidity_iff {rt : Runtime} {payload proof : Members} {key : Json}
    {lower upper : Option ℚ} {created : ℚ}
    (halgorithm : isText (member proof (js "algorithm")) (js "Ed25519") = true)
    (hkeyAlgorithm : isText (get (some key) (js "algorithm")) (js "Ed25519") = true)
    (hformat : isText (get (some key) (js "format")) (js "spki-pem") = true)
    (hlower : Bound (get (some key) (js "valid_from")) lower)
    (hupper : Bound (get (some key) (js "valid_until")) upper)
    (hcreated : Denotes (member proof (js "created_at")) created) :
    RejectedOnValidity (verifyWithKey rt payload proof key) ↔
      (∃ b ∈ lower, ⌊created⌋ < ⌊b⌋) ∨ ∃ b ∈ upper, ⌊b⌋ < ⌊created⌋ := by
  have hbefore : (lower.elim false fun y ↦ timeBefore (some ⌊created⌋) (some ⌊y⌋)) = true ↔
      ∃ b ∈ lower, ⌊created⌋ < ⌊b⌋ := by
    cases lower <;> simp [timeBefore]
  have hafter : (upper.elim false fun y ↦ timeBefore (some ⌊y⌋) (some ⌊created⌋)) = true ↔
      ∃ b ∈ upper, ⌊b⌋ < ⌊created⌋ := by
    cases upper <;> simp [timeBefore]
  rw [← hbefore, ← hafter, verifyWithKey]
  simp only [halgorithm, hkeyAlgorithm, hformat, Bool.not_true, Bool.or_self, Bool.false_eq_true,
    if_false, outsideBound_eq hlower hcreated, outsideBound_eq hupper hcreated]
  cases lower.elim false fun y ↦ timeBefore (some ⌊created⌋) (some ⌊y⌋) with
  | true => exact iff_of_true ⟨none, .inl rfl⟩ (.inl rfl)
  | false =>
    cases upper.elim false fun y ↦ timeBefore (some ⌊y⌋) (some ⌊created⌋) with
    | true => exact iff_of_true ⟨none, .inr rfl⟩ (.inr rfl)
    | false => exact iff_of_false not_rejectedOnValidity_checkSignature (by simp)

/-- Rounding down agrees on lying outside unless the instant lies just outside. -/
theorem floor_outside_iff (lower upper : Option ℚ) (x : ℚ) :
    (((∃ b ∈ lower, ⌊x⌋ < ⌊b⌋) ∨ ∃ b ∈ upper, ⌊b⌋ < ⌊x⌋) ↔ Outside lower upper x) ↔
      ¬JustOutside lower upper x := by
  have hof {y z : ℚ} (h : ⌊y⌋ < ⌊z⌋) : y < z := by
    by_contra hle
    exact absurd (Int.floor_mono (not_lt.mp hle)) (not_le.mpr h)
  constructor
  · rintro hiff ⟨houtside, hlower, hupper⟩
    rcases hiff.mpr houtside with ⟨b, hb, hlt⟩ | ⟨b, hb, hlt⟩
    · exact absurd (hlower b hb (hof hlt)) hlt.ne
    · exact absurd (hupper b hb (hof hlt)) hlt.ne
  · intro hnot
    constructor
    · rintro (⟨b, hb, hlt⟩ | ⟨b, hb, hlt⟩)
      · exact .inl ⟨b, hb, hof hlt⟩
      · exact .inr ⟨b, hb, hof hlt⟩
    · intro houtside
      by_contra hnone
      rw [not_or] at hnone
      refine hnot ⟨houtside, fun b hb hlt ↦ ?_, fun b hb hlt ↦ ?_⟩
      · exact (Int.floor_mono hlt.le).eq_of_not_lt fun h ↦ hnone.1 ⟨b, hb, h⟩
      · exact (Int.floor_mono hlt.le).eq_of_not_lt fun h ↦ hnone.2 ⟨b, hb, h⟩

/-- The three rules decide about exact instants, except between instants of one millisecond. -/
theorem time_rules_exact_iff (rt : Runtime) :
    (∀ (issuerIds : List JsString) (members : Members) (path : JsString)
      (occurred recorded : ℚ), Denotes (member members (js "occurred_at")) occurred →
      Denotes (member members (js "recorded_at")) recorded →
      Returns (verifyEvent rt issuerIds (.obj members) path) →
      ((ReportsCode .eventRecordedBeforeOccurred (verifyEvent rt issuerIds (.obj members) path) ↔
        recorded < occurred) ↔ ¬(recorded < occurred ∧ ⌊recorded⌋ = ⌊occurred⌋))) ∧
    (∀ (members : Members) (path : JsString) (index : Nat) (lower upper : ℚ),
      Denotes (member members (js "valid_from")) lower →
      Denotes (member members (js "valid_until")) upper →
      ((ReportsCode .keyValidityIntervalInvalid (verifyKey path index (.obj members)) ↔
        upper ≤ lower) ↔ ¬(lower < upper ∧ ⌊lower⌋ = ⌊upper⌋))) ∧
    ∀ (payload proof : Members) (key : Json) (lower upper : Option ℚ)
      (created : ℚ), isText (member proof (js "algorithm")) (js "Ed25519") = true →
      isText (get (some key) (js "algorithm")) (js "Ed25519") = true →
      isText (get (some key) (js "format")) (js "spki-pem") = true →
      Bound (get (some key) (js "valid_from")) lower →
      Bound (get (some key) (js "valid_until")) upper →
      Denotes (member proof (js "created_at")) created →
      ((RejectedOnValidity (verifyWithKey rt payload proof key) ↔ Outside lower upper created) ↔
        ¬JustOutside lower upper created) := by
  refine ⟨?_, ?_, ?_⟩
  · intro issuerIds members path occurred recorded hoccurred hrecorded hreturns
    rw [reports_recordedBefore hoccurred hrecorded hreturns]
    exact floor_lt_iff_lt recorded occurred
  · intro members path index lower upper hlower hupper
    rw [reports_validityInterval hlower hupper]
    exact floor_le_iff_le upper lower
  · intro payload proof key lower upper created halgorithm hkeyAlgorithm hformat hlower hupper
      hcreated
    rw [rejectedOnValidity_iff halgorithm hkeyAlgorithm hformat hlower hupper hcreated]
    exact floor_outside_iff lower upper created

/-! ### Two instants of one millisecond -/

/-- The sample event, occurred at the second and recorded at the first of two instants that are
100 nanoseconds apart. -/
def earlyRecordedEvent : Members :=
  (membersOf (some (sampleEvent "e1" "SETTLEMENT" "commerce.refund.settled" "SYSTEM_OF_RECORD"
    [jsonText "v1"] "a5bafbf7b129b09712a0d48f4c77a81b6b069892264f1757484753b34d7f32df"))).map
      fun m ↦
        if m.1 = js "occurred_at" then (m.1, jsonText "2026-07-01T10:00:00.0002Z")
        else if m.1 = js "recorded_at" then (m.1, jsonText "2026-07-01T10:00:00.0001Z")
        else m

/-- The sample host on the text of this event as well. -/
def earlyRecordedRuntime : Runtime :=
  { sampleRuntime with
    sha256 := fun bytes ↦
      if bytes.length = 418 then
        digestOf "a5bafbf7b129b09712a0d48f4c77a81b6b069892264f1757484753b34d7f32df"
      else sampleRuntime.sha256 bytes }

private theorem earlyRecordedFacts :
    (verifyEvent earlyRecordedRuntime [js "psp"] (.obj earlyRecordedEvent)
      (js "$.payload.events[0]")).toOption.any List.isEmpty = true := by
  decide +kernel

/-- The fields of the two instants. -/
def earlyFields (fraction : String) : TimestampFields where
  year := 2026
  month := 7
  day := 1
  hour := 10
  minute := 0
  second := 0
  fraction := js fraction

private theorem early_denotes :
    Denotes (some (jsonText "2026-07-01T10:00:00.0001Z")) (earlyFields "0001").instant := by
  have hread : readTimestamp (js "2026-07-01T10:00:00.0001Z") = some (earlyFields "0001") := rfl
  exact ⟨_, _, rfl, rfl, readTimestamp_eq_some.mp hread, rfl⟩

private theorem late_denotes :
    Denotes (some (jsonText "2026-07-01T10:00:00.0002Z")) (earlyFields "0002").instant := by
  have hread : readTimestamp (js "2026-07-01T10:00:00.0002Z") = some (earlyFields "0002") := rfl
  exact ⟨_, _, rfl, rfl, readTimestamp_eq_some.mp hread, rfl⟩

private theorem earlyFields_lt : (earlyFields "0001").instant < (earlyFields "0002").instant := by
  have hfirst : digitsValue (js "0001") = 1 := rfl
  have hsecond : digitsValue (js "0002") = 2 := rfl
  have hlength : (js "0001").length = 4 ∧ (js "0002").length = 4 := ⟨rfl, rfl⟩
  unfold TimestampFields.instant earlyFields
  dsimp only
  rw [hfirst, hsecond, hlength.1, hlength.2]
  norm_num

/-- An event that is recorded before it occurred, and about which nothing is reported. -/
theorem earlyRecorded_accepted :
    ∃ occurred recorded, Denotes (member earlyRecordedEvent (js "occurred_at")) occurred ∧
      Denotes (member earlyRecordedEvent (js "recorded_at")) recorded ∧ recorded < occurred ∧
      verifyEvent earlyRecordedRuntime [js "psp"] (.obj earlyRecordedEvent)
        (js "$.payload.events[0]") = .ok [] := by
  refine ⟨_, _, late_denotes, early_denotes, earlyFields_lt, ?_⟩
  have hfacts := earlyRecordedFacts
  cases hevent : verifyEvent earlyRecordedRuntime [js "psp"] (.obj earlyRecordedEvent)
      (js "$.payload.events[0]") with
  | error thrown => simp [hevent, Except.toOption] at hfacts
  | ok issues =>
    rw [hevent] at hfacts
    rw [List.isEmpty_iff.mp hfacts]

/-- A key that is valid from the one instant until the other. -/
def narrowKey : Members :=
  [(js "key_id", jsonText "k1"), (js "algorithm", jsonText "Ed25519"),
    (js "format", jsonText "spki-pem"), (js "public_key", .str samplePem),
    (js "valid_from", jsonText "2026-07-01T10:00:00.0001Z"),
    (js "valid_until", jsonText "2026-07-01T10:00:00.0002Z")]

/-- A proof that is created at the one instant. -/
def earlyProof : Members :=
  [(js "created_at", jsonText "2026-07-01T10:00:00.0001Z"), (js "algorithm", jsonText "Ed25519")]

theorem time_rules_exact_iff_narrow :
    ∃ early late : ℚ, early < late ∧
      ((ReportsCode .eventRecordedBeforeOccurred (verifyEvent earlyRecordedRuntime [js "psp"]
        (.obj earlyRecordedEvent) (js "$.payload.events[0]")) ↔ early < late) ↔
        ¬(early < late ∧ ⌊early⌋ = ⌊late⌋)) ∧
      ((ReportsCode .keyValidityIntervalInvalid (verifyKey (js "$.payload.issuers[0]") 0
        (.obj narrowKey)) ↔ late ≤ early) ↔ ¬(early < late ∧ ⌊early⌋ = ⌊late⌋)) ∧
      ((RejectedOnValidity (verifyWithKey sampleRuntime [] earlyProof (.obj narrowKey)) ↔
        Outside (some early) (some late) early) ↔
          ¬JustOutside (some early) (some late) early) := by
  obtain ⟨-, -, -, -, -, hevent⟩ := earlyRecorded_accepted
  refine ⟨_, _, earlyFields_lt, ?_, ?_, ?_⟩
  · exact (time_rules_exact_iff _).1 _ _ _ _ _ late_denotes early_denotes ⟨_, hevent⟩
  · exact (time_rules_exact_iff sampleRuntime).2.1 _ _ _ _ _ early_denotes late_denotes
  · exact (time_rules_exact_iff _).2.2 _ _ _ _ _ _ rfl rfl rfl (.present early_denotes)
      (.present late_denotes) early_denotes

end TimeProofs.Core
