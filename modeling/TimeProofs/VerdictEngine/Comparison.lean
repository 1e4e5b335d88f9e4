import TimeProofs.Core.Rearrangement
import TimeProofs.VerdictEngine.Refund

/-!
# Verdicts of related bundles

Added events and proofs only move the refund verdict forward, and the order of the arrays of a
bundle does not reach it.
-/

namespace TimeProofs.VerdictEngine

open TimeProofs.Base TimeProofs.Json TimeProofs.Core

/-- The place of a verdict in the order UNPROVABLE, PENDING, VERIFIED, CONTRADICTED. -/
def Verdict.rank : Verdict → Nat
  | .unprovable => 0
  | .pending => 1
  | .verified => 2
  | .contradicted => 3

/-- A qualifying event of a group. -/
def HasQualifying (validProofs : List ValidProof) (events : List Json) (group : Json → Bool) :
    Prop :=
  ∃ event ∈ events, isQualifying validProofs event = true ∧ group event = true

/-- The qualifying events contradict the outcome. -/
def Contradicts (validProofs : List ValidProof) (events : List Json) : Prop :=
  HasQualifying validProofs events isReversed ∨ HasQualifying validProofs events isCancelled ∨
    HasQualifying validProofs events isFailedSettlement

/-- The events show a refund under way. -/
def Progresses (validProofs : List ValidProof) (events : List Json) : Prop :=
  HasQualifying validProofs events isPendingSettlement ∨
    HasQualifying validProofs events isCreated ∨ ∃ event ∈ events, isAccepted event = true

section

variable {ruleset : JsString} {verification : Verification} {events : List Json}

private theorem length_group {validProofs : List ValidProof} {group : Json → Bool} :
    0 < ((events.filter (isQualifying validProofs)).filter group).length ↔
      HasQualifying validProofs events group := by
  rw [List.length_pos_iff_exists_mem]
  simp only [List.mem_filter, HasQualifying, and_assoc]

private theorem length_accepted :
    0 < (events.filter isAccepted).length ↔ ∃ event ∈ events, isAccepted event = true := by
  rw [List.length_pos_iff_exists_mem]
  simp only [List.mem_filter]

private theorem verdict_verdictOn :
    (verdictOn ruleset verification events).verdict =
      let group := (events.filter (isQualifying verification.validProofs)).filter
      if 0 < (group isReversed).length ∨ 0 < (group isCancelled).length ∨
          0 < (group isFailedSettlement).length then .contradicted
      else if 0 < (group isSettled).length then .verified
      else if 0 < (group isPendingSettlement).length ∨ 0 < (group isCreated).length ∨
          0 < (events.filter isAccepted).length then .pending
      else .unprovable := by
  unfold verdictOn
  simp only [apply_ite Evaluation.verdict]

/-- What each verdict asks of the events. -/
theorem verdictOn_cases (ruleset : JsString) (verification : Verification)
    (events : List Json) :
    (Contradicts verification.validProofs events ∧
      (verdictOn ruleset verification events).verdict = .contradicted) ∨
    (¬Contradicts verification.validProofs events ∧
      HasQualifying verification.validProofs events isSettled ∧
      (verdictOn ruleset verification events).verdict = .verified) ∨
    (¬Contradicts verification.validProofs events ∧
      ¬HasQualifying verification.validProofs events isSettled ∧
      Progresses verification.validProofs events ∧
      (verdictOn ruleset verification events).verdict = .pending) ∨
    (¬Contradicts verification.validProofs events ∧
      ¬HasQualifying verification.validProofs events isSettled ∧
      ¬Progresses verification.validProofs events ∧
      (verdictOn ruleset verification events).verdict = .unprovable) := by
  unfold Contradicts Progresses
  simp only [← length_group, ← length_accepted, verdict_verdictOn]
  split_ifs with hcontradicts hsettled hprogress
  · exact .inl ⟨hcontradicts, rfl⟩
  · exact .inr (.inl ⟨hcontradicts, hsettled, rfl⟩)
  · exact .inr (.inr (.inl ⟨hcontradicts, hsettled, hprogress, rfl⟩))
  · exact .inr (.inr (.inr ⟨hcontradicts, hsettled, hprogress, rfl⟩))

end

/-! ### More evidence -/

section

variable {validProofs validProofs' : List ValidProof} {events events' : List Json}

theorem isQualifying_mono (hproofs : validProofs ⊆ validProofs') {event : Json}
    (h : isQualifying validProofs event = true) : isQualifying validProofs' event = true := by
  rw [isQualifying, Bool.and_eq_true] at h ⊢
  refine ⟨h.1, ?_⟩
  obtain ⟨proof, hproof, hcovers⟩ := List.any_eq_true.mp h.2
  exact List.any_eq_true.mpr ⟨proof, hproofs hproof, hcovers⟩

theorem HasQualifying.mono {group : Json → Bool} (hproofs : validProofs ⊆ validProofs')
    (hevents : events ⊆ events') (h : HasQualifying validProofs events group) :
    HasQualifying validProofs' events' group := by
  obtain ⟨event, hevent, hqualifying, hgroup⟩ := h
  exact ⟨event, hevents hevent, isQualifying_mono hproofs hqualifying, hgroup⟩

theorem Contradicts.mono (hproofs : validProofs ⊆ validProofs') (hevents : events ⊆ events')
    (h : Contradicts validProofs events) : Contradicts validProofs' events' := by
  rcases h with h | h | h
  · exact .inl (h.mono hproofs hevents)
  · exact .inr (.inl (h.mono hproofs hevents))
  · exact .inr (.inr (h.mono hproofs hevents))

theorem Progresses.mono (hproofs : validProofs ⊆ validProofs') (hevents : events ⊆ events')
    (h : Progresses validProofs events) : Progresses validProofs' events' := by
  rcases h with h | h | ⟨event, hevent, haccepted⟩
  · exact .inl (h.mono hproofs hevents)
  · exact .inr (.inl (h.mono hproofs hevents))
  · exact .inr (.inr ⟨event, hevents hevent, haccepted⟩)

/-- More events and more valid proofs give a verdict at least as far. -/
theorem rank_verdictOn_mono {ruleset : JsString} {verification verification' : Verification}
    (hproofs : verification.validProofs ⊆ verification'.validProofs)
    (hevents : events ⊆ events') :
    (verdictOn ruleset verification events).verdict.rank ≤
      (verdictOn ruleset verification' events').verdict.rank := by
  have hcontradicts := fun h : Contradicts verification.validProofs events ↦
    h.mono hproofs hevents
  have hsettled := fun h : HasQualifying verification.validProofs events isSettled ↦
    h.mono hproofs hevents
  have hprogress := fun h : Progresses verification.validProofs events ↦ h.mono hproofs hevents
  have hcases := verdictOn_cases ruleset verification events
  have hcases' := verdictOn_cases ruleset verification' events'
  rcases hcases with ⟨h₁, hv⟩ | ⟨-, h₂, hv⟩ | ⟨-, -, h₃, hv⟩ | ⟨-, -, -, hv⟩ <;>
    rcases hcases' with ⟨-, hv'⟩ | ⟨h₁', -, hv'⟩ | ⟨h₁', h₂', -, hv'⟩ | ⟨h₁', h₂', h₃', hv'⟩ <;>
    simp_all [Verdict.rank]

end

/-- A bundle that the verifier does not reject is an accepted one. -/
theorem accepted_of_verifyBundle {rt : Runtime} {bundle : Members} {result : Verification}
    (h : verifyBundle rt (.obj bundle) = .ok result) (hs : result.status ≠ .invalid) :
    Accepted rt bundle ∧ result = conclude rt bundle [] := by
  obtain ⟨rt', members, hread, hok, hresult⟩ := verifyBundle_accepts.mp ⟨h, hs⟩
  cases hread
  exact ⟨hok, hresult⟩

/-- A bundle with the events and proofs of another, and more, has a verdict at least as far. -/
theorem evaluateRefund_mono {rt : Runtime} {bundle bundle' : Members}
    {result result' : Verification} (hverify : verifyBundle rt (.obj bundle) = .ok result)
    (hstatus : result.status ≠ .invalid)
    (hverify' : verifyBundle rt (.obj bundle') = .ok result')
    (hstatus' : result'.status ≠ .invalid)
    (hevents : ∀ event ∈ (sectionsOf bundle).events, event ∈ (sectionsOf bundle').events)
    (hproofs : ∀ proof ∈ (sectionsOf bundle).proofs, proof ∈ (sectionsOf bundle').proofs) :
    ∃ evaluation evaluation', evaluateRefund rt (.obj bundle) refundRuleset = .ok evaluation ∧
      evaluateRefund rt (.obj bundle') refundRuleset = .ok evaluation' ∧
      evaluation.verdict.rank ≤ evaluation'.verdict.rank := by
  obtain ⟨hok, -⟩ := accepted_of_verifyBundle hverify hstatus
  obtain ⟨hok', -⟩ := accepted_of_verifyBundle hverify' hstatus'
  refine ⟨_, _, evaluateRefund_accepted hok, evaluateRefund_accepted hok', ?_⟩
  apply rank_verdictOn_mono
  · show validProofs rt bundle (sectionsOf bundle) ⊆ validProofs rt bundle' (sectionsOf bundle')
    rw [hok.validProofs_eq, hok'.validProofs_eq]
    exact List.map_subset _ hproofs
  · intro event hevent
    rw [List.mem_filter, mem_chronological] at hevent ⊢
    exact ⟨hevents event hevent.1, hevent.2⟩

/-- The settled refund before it is signed. -/
def unsignedBundle : Json :=
  sampleBundle
    [sampleEvent "e1" "SETTLEMENT" "commerce.refund.settled" "SYSTEM_OF_RECORD" [jsonText "v1"]
      sampleEventHash]
    [sampleEvidence] [sampleRelationship] []

private theorem unsignedBundleIncomplete :
    (verifyBundle sampleRuntime unsignedBundle).toOption.map Verification.status =
      some .incomplete := by
  decide +kernel

theorem evaluateRefund_mono_signed :
    ∃ evaluation evaluation',
      evaluateRefund sampleRuntime unsignedBundle refundRuleset = .ok evaluation ∧
      evaluateRefund sampleRuntime settledBundle refundRuleset = .ok evaluation' ∧
      evaluation.verdict.rank ≤ evaluation'.verdict.rank := by
  obtain ⟨result, hverify, hstatus⟩ := exists_of_status unsignedBundleIncomplete
  obtain ⟨result', hverify', hstatus'⟩ := exists_of_status settledBundleValid
  apply evaluateRefund_mono hverify (by simp [hstatus]) hverify' (by simp [hstatus'])
  · exact fun event hevent ↦ hevent
  · intro proof hproof
    exact absurd hproof List.not_mem_nil

/-! ### Another order -/

/-- Evaluations with the same verdict for the same reason, on the same events. -/
structure SameOutcome (e e' : Evaluation) : Prop where
  verdict : e'.verdict = e.verdict
  reason : e'.reason = e.reason
  decisiveEvents : Option.Rel List.Perm e.decisiveEvents e'.decisiveEvents

theorem verdictOn_perm {ruleset : JsString} {verification verification' : Verification}
    {events events' : List Json}
    (hqualifying : isQualifying verification'.validProofs = isQualifying verification.validProofs)
    (hevents : events.Perm events') :
    SameOutcome (verdictOn ruleset verification events)
      (verdictOn ruleset verification' events') := by
  have hgroup (group : Json → Bool) :
      ((events.filter (isQualifying verification.validProofs)).filter group).Perm
        ((events'.filter (isQualifying verification.validProofs)).filter group) :=
    (hevents.filter _).filter _
  have haccepted := hevents.filter isAccepted
  have hlength (group : Json → Bool) := (hgroup group).length_eq
  have hids {xs ys : List Json} (h : xs.Perm ys) : (eventIds xs).Perm (eventIds ys) := h.map _
  refine ⟨?_, ?_, ?_⟩
  · simp only [verdict_verdictOn, hqualifying, hlength, haccepted.length_eq]
  · unfold verdictOn
    simp only [apply_ite Evaluation.reason, hqualifying, hlength, haccepted.length_eq]
  · unfold verdictOn
    simp only [apply_ite Evaluation.decisiveEvents, hqualifying, hlength, haccepted.length_eq]
    split_ifs
    · exact .some (hids ((((hgroup _).append (hgroup _)).append (hgroup _)).append (hgroup _)))
    · exact .some (hids (hgroup _))
    · exact .some (hids (hgroup _))
    · exact .some (hids (hgroup _))
    · exact .some (hids haccepted)
    · exact .some (.refl _)

theorem isQualifying_perm {proofs proofs' : List ValidProof} (h : proofs.Perm proofs') :
    isQualifying proofs' = isQualifying proofs := by
  funext event
  rw [Bool.eq_iff_iff]
  exact ⟨isQualifying_mono h.symm.subset, isQualifying_mono h.subset⟩

theorem chronological_perm (rt : Runtime) {events events' : List Json} (h : events.Perm events') :
    (chronological rt events).Perm (chronological rt events') :=
  ((List.perm_insertionSort _ events).trans h).trans (List.perm_insertionSort _ events').symm

/-- On accepted bundles every ruleset has an evaluation. -/
theorem evaluateRefund_of_accepted {rt : Runtime} {bundle : Members} (h : Accepted rt bundle)
    (ruleset : JsString) :
    evaluateRefund rt (.obj bundle) ruleset = .ok
      (if ruleset = refundRuleset then verdictOn refundRuleset (conclude rt bundle [])
        ((chronological rt (sectionsOf bundle).events).filter isRefundEvent)
      else unprovable ruleset "RULESET_NOT_SUPPORTED" none) := by
  by_cases hruleset : ruleset = refundRuleset
  · subst hruleset
    rw [if_pos rfl, evaluateRefund_accepted h]
  · rw [if_neg hruleset, evaluateRefund, if_pos hruleset]

/-- The order of issuers, events, evidence, relationships and proofs reaches neither the status
nor the valid proofs nor the verdict of a bundle without payload proofs. -/
theorem rearranged_same {rt : Runtime} {bundle bundle' : Members} {result : Verification}
    (h : Rearranged bundle bundle') (hverify : verifyBundle rt (.obj bundle) = .ok result)
    (hstatus : result.status ≠ .invalid) (hnot : NoPayloadProof bundle) (ruleset : JsString) :
    ∃ result' evaluation evaluation', verifyBundle rt (.obj bundle') = .ok result' ∧
      result'.status = result.status ∧ result.validProofs.Perm result'.validProofs ∧
      evaluateRefund rt (.obj bundle) ruleset = .ok evaluation ∧
      evaluateRefund rt (.obj bundle') ruleset = .ok evaluation' ∧
      SameOutcome evaluation evaluation' := by
  obtain ⟨hok, rfl⟩ := accepted_of_verifyBundle hverify hstatus
  have hok' : Accepted rt bundle' := hok.rearranged h hnot
  have hproofs := hok.validProofs_rearranged h hnot
  have haccepts : verifyBundle rt (.obj bundle') = .ok (conclude rt bundle' []) ∧
      (conclude rt bundle' []).status ≠ .invalid :=
    verifyBundle_accepts.mpr ⟨rt, bundle', rfl, hok', rfl⟩
  obtain ⟨hverify', -⟩ := haccepts
  refine ⟨_, _, _, hverify', ?_, hproofs, evaluateRefund_of_accepted hok ruleset,
    evaluateRefund_of_accepted hok' ruleset, ?_⟩
  · show (if _ then _ else _) = (if _ then _ else _)
    rw [h.sections.incompleteReasons]
  · by_cases hruleset : ruleset = refundRuleset
    · rw [if_pos hruleset, if_pos hruleset]
      apply verdictOn_perm (isQualifying_perm hproofs)
      exact (chronological_perm rt h.sections.events).filter _
    · rw [if_neg hruleset, if_neg hruleset]
      exact ⟨rfl, rfl, .none⟩

/-- The settled refund with two proofs, in the given order. -/
def twiceSigned (first second : Json) : Members :=
  membersOf (some (sampleBundle
    [sampleEvent "e1" "SETTLEMENT" "commerce.refund.settled" "SYSTEM_OF_RECORD" [jsonText "v1"]
      sampleEventHash]
    [sampleEvidence] [sampleRelationship] [first, second]))

/-- The sample proof under another id, which the signature does not cover. -/
def secondProof : Json :=
  .obj ((js "proof_id", jsonText "p2") :: (membersOf (some sampleProof)).tail)

private theorem twiceSignedValid :
    (verifyBundle sampleRuntime (.obj (twiceSigned sampleProof secondProof))).toOption.map
      Verification.status = some .valid := by
  decide +kernel

theorem twiceSigned_same :
    ∃ result result' evaluation evaluation',
      verifyBundle sampleRuntime (.obj (twiceSigned sampleProof secondProof)) = .ok result ∧
      verifyBundle sampleRuntime (.obj (twiceSigned secondProof sampleProof)) = .ok result' ∧
      result'.status = result.status ∧ result.validProofs.Perm result'.validProofs ∧
      evaluateRefund sampleRuntime (.obj (twiceSigned sampleProof secondProof)) refundRuleset =
        .ok evaluation ∧
      evaluateRefund sampleRuntime (.obj (twiceSigned secondProof sampleProof)) refundRuleset =
        .ok evaluation' ∧
      SameOutcome evaluation evaluation' := by
  obtain ⟨result, hverify, hstatus⟩ := exists_of_status twiceSignedValid
  have hrearranged :
      Rearranged (twiceSigned sampleProof secondProof) (twiceSigned secondProof sampleProof) := by
    refine .cons ⟨rfl, .inl rfl⟩ (.cons ⟨rfl, .inr (.inr ⟨rfl, ?_⟩)⟩ .nil)
    exact ⟨_, _, rfl, rfl, .swap _ _ _⟩
  have hnot : NoPayloadProof (twiceSigned sampleProof secondProof) := by
    have htypes : (sectionsOf (twiceSigned sampleProof secondProof)).proofs.all (fun proof ↦
        !isText (get (get (some proof) (js "target")) (js "target_type"))
          (js "BUNDLE_PAYLOAD")) = true := by decide
    intro proof hproof htype
    have hno := List.all_eq_true.mp htypes proof hproof
    rw [htype] at hno
    exact absurd hno (by simp [isText])
  obtain ⟨result', evaluation, evaluation', hrest⟩ :=
    rearranged_same hrearranged hverify (by simp [hstatus]) hnot refundRuleset
  exact ⟨result, result', evaluation, evaluation', hverify, hrest⟩

end TimeProofs.VerdictEngine
