import TimeProofs.Base.Instant
import TimeProofs.Relay.AppendOnly

/-!
# The listing of the revisions

`listRevisions` sorts the names of the revision files as texts and reads the numbers back from
them. The writer pads a number to six digits and writes a longer one in full, and the reader
takes names of six digits only: a history is listed as a whole up to revision 999999.
-/

namespace TimeProofs.Relay

open TimeProofs.Base TimeProofs.Json TimeProofs.Core TimeProofs.VerdictEngine
  TimeProofs.StripeConnector

/-- The entries of the given files, `store.mjs:169–177`. -/
def readEntries (key : JsString) : List JsString → StoreCall (List RevisionEntry)
  | [] => return []
  | name :: rest => do
    match ← Call.read fun s ↦ member (s.actions key).revisions name with
    | some bundle => return revisionEntry name bundle :: (← readEntries key rest)
    | none => Call.reject fileMissing

/-- `listRevisions`, `store.mjs:164–179`. -/
def listRevisions (host : Host) (actionId : JsString) : StoreCall (List RevisionEntry) := do
  let key ← Call.ofExcept (paths host (.actionId actionId))
  let _ ← getAction host (.actionId actionId)
  let names ← Call.read fun s ↦ revisionNames (s.actions key)
  readEntries key names

/-- The largest revision number of six digits. -/
def lastListed : Nat := 999999

theorem length_padStart_le {width n : Nat} (h : (padStart width (decimal n)).length = width) :
    n < 10 ^ width := by
  have hdigits : ∀ c ∈ decimal n, isDigit c = true := fun c ↦ isDigit_of_mem_decimal
  have hlt := digitsValue_lt hdigits
  rw [digitsValue_decimal] at hlt
  rw [padStart, List.length_append, List.length_replicate] at h
  exact Nat.lt_of_lt_of_le hlt (Nat.pow_le_pow_right (by decide) (by omega))

/-- The reader takes the names of the numbers of six digits. -/
theorem isRevisionName_revisionFile {n : Nat} :
    isRevisionName (revisionFile n) = true ↔ n ≤ lastListed := by
  constructor
  · intro h
    have hsix : ((revisionFile n).drop 6).length = 12 := by
      rw [isRevisionName, Bool.and_eq_true, decide_eq_true_eq] at h
      rw [h.2]
      rfl
    have hlength : (padStart 6 (decimal n)).length = 6 := by
      rw [revisionFile, List.length_drop, List.length_append,
        show (js ".bundle.json").length = 12 from rfl] at hsix
      omega
    have hlt := length_padStart_le hlength
    unfold lastListed
    omega
  · intro h
    have hlt : n < 10 ^ 6 := by
      unfold lastListed at h
      omega
    obtain ⟨hlength, hdigits, -⟩ := padStart_decimal (by decide) hlt
    rw [isRevisionName, revisionFile, List.take_left' hlength, List.drop_left' hlength]
    simp only [hlength, decide_true, Bool.true_and, Bool.and_true, List.all_eq_true]
    exact hdigits

/-- Numerals of one length are ordered as texts as their numbers are. -/
theorem compareUtf16_numerals {s t : JsString} (u : JsString) (hs : ∀ c ∈ s, isDigit c = true)
    (ht : ∀ c ∈ t, isDigit c = true) (hlength : s.length = t.length)
    (hle : digitsValue s ≤ digitsValue t) : compareUtf16 (s ++ u) (t ++ u) ≤ 0 := by
  induction s generalizing t with
  | nil =>
    obtain rfl : t = [] := List.eq_nil_of_length_eq_zero hlength.symm
    exact Int.le_of_eq (compareUtf16_self _)
  | cons a s ih =>
    cases t with
    | nil => cases hlength
    | cons b t =>
      have hvalue (c : CodeUnit) (r : JsString) :
          digitsValue (c :: r) = (c.toNat - 0x30) * 10 ^ r.length + digitsValue r := by
        have hdigit : digitsValue [c] = c.toNat - 0x30 := Nat.zero_add _
        rw [← hdigit]
        exact digitsValue_append [c] r
      have hlengths : s.length = t.length := Nat.succ.inj hlength
      have htail : ∀ c ∈ t, isDigit c = true := fun c hc ↦ ht c (List.mem_cons_of_mem b hc)
      have hbound := digitsValue_lt htail
      have ha := hs a List.mem_cons_self
      have hb := ht b List.mem_cons_self
      simp only [isDigit, Bool.and_eq_true, decide_eq_true_eq] at ha hb
      rw [hvalue, hvalue, hlengths] at hle
      rw [List.cons_append, List.cons_append, compareUtf16]
      split
      · next hab =>
        apply ih (fun c hc ↦ hs c (List.mem_cons_of_mem a hc)) htail hlengths
        rw [hab] at hle
        omega
      · next hne =>
        -- a greater first digit would make the whole number greater
        have hab : a.toNat ≤ b.toNat := by
          by_contra hgt
          have hdigits : b.toNat - 0x30 + 1 ≤ a.toNat - 0x30 := by omega
          have hmul := Nat.mul_le_mul_right (10 ^ t.length) hdigits
          rw [Nat.add_mul, Nat.one_mul] at hmul
          omega
        omega

/-- The files of the first revisions, in the order in which they are listed. -/
def firstFiles (count : Nat) : List JsString := (List.range count).map fun i ↦ revisionFile (i + 1)

/-- The files of the first revisions are sorted as texts. -/
theorem sortNames_firstFiles {count : Nat} (h : count ≤ lastListed) :
    sortNames (firstFiles count) = firstFiles count := by
  apply List.Pairwise.insertionSort_eq
  rw [firstFiles, List.pairwise_map]
  apply List.pairwise_lt_range.imp_of_mem
  intro i j hi hj hlt
  rw [List.mem_range] at hi hj
  unfold lastListed at h
  obtain ⟨hlengthi, hdigitsi, hvaluei⟩ :=
    padStart_decimal (w := 6) (by decide) (show i + 1 < 10 ^ 6 by omega)
  obtain ⟨hlengthj, hdigitsj, hvaluej⟩ :=
    padStart_decimal (w := 6) (by decide) (show j + 1 < 10 ^ 6 by omega)
  apply compareUtf16_numerals _ hdigitsi hdigitsj (hlengthi.trans hlengthj.symm)
  omega

/-- A directory with exactly the files of the first revisions lists them in their order. -/
theorem revisionNames_eq {files : ActionFiles} {count : Nat}
    (hnodup : (files.revisions.map Prod.fst).Nodup)
    (hmem : ∀ name, name ∈ files.revisions.map Prod.fst ↔ name ∈ firstFiles count)
    (hcount : count ≤ lastListed) : revisionNames files = firstFiles count := by
  have hall : (files.revisions.map Prod.fst).filter isRevisionName =
      files.revisions.map Prod.fst := by
    apply List.filter_eq_self.mpr
    intro name hname
    obtain ⟨i, hi, rfl⟩ := List.mem_map.mp ((hmem name).mp hname)
    have hlt := List.mem_range.mp hi
    exact isRevisionName_revisionFile.mpr (by omega)
  have hfirst : (firstFiles count).Nodup := by
    apply List.nodup_range.map
    intro i j hij
    have heq := revisionFile_inj hij
    omega
  have hperm : (files.revisions.map Prod.fst).Perm (firstFiles count) :=
    (List.perm_ext_iff_of_nodup hnodup hfirst).mpr hmem
  rw [revisionNames, hall, sortNames_eq_iff.mpr hperm, sortNames_firstFiles hcount]

/-! ### What has been stored -/

/-- The bundle whose revision an event completes in a directory: its metadata is written. -/
def commitOf (p : Process) (key : JsString) : Event → Option Members
  | .advance call =>
    match p.calls[call]? with
    | some (.writing writer _ written _ .metadata) =>
      if written = key then some writer.bundle else none
    | _ => none
  | _ => none

/-- The bundles that a run stores in a directory, in the order of their revisions. -/
def storedIn (host : Host) (relay : RelayService) (key : JsString) : Process → List Event →
    List Members
  | _, [] => []
  | p, event :: rest =>
    (commitOf p key event).toList ++
      match p.step host relay event with
      | some q => storedIn host relay key q rest
      | none => []

/-- The files of a process whose run has stored the given bundles and has not crashed. -/
structure Recorded (stored : JsString → List Members) (p : Process) : Prop where
  committed : ∀ key, committedRevision (p.store.actions key) = (stored key).length
  content : ∀ (key : JsString) (n : Nat) (bundle : Members), (stored key)[n]? = some bundle →
    revisionOf (p.store.actions key) (n + 1) = some (clone (.obj bundle))
  held : ∀ key, ∀ name ∈ (p.store.actions key).revisions.map Prod.fst,
    ∃ n, name = revisionFile n ∧ Held p key n
  nodup : ∀ key, ((p.store.actions key).revisions.map Prod.fst).Nodup

theorem nodup_map_fst_setMember {ms : Members} (h : (ms.map Prod.fst).Nodup) (key : JsString)
    (v : Json) : ((setMember ms key v).map Prod.fst).Nodup := by
  induction ms with
  | nil => exact List.nodup_singleton key
  | cons m rest ih =>
    obtain ⟨name, w⟩ := m
    rw [List.map_cons, List.nodup_cons] at h
    rw [setMember]
    split
    · next hname =>
      rw [List.map_cons, List.nodup_cons]
      exact ⟨hname ▸ h.1, h.2⟩
    · next hname =>
      rw [List.map_cons, List.nodup_cons]
      refine ⟨fun hmem ↦ ?_, ih h.2⟩
      rcases mem_map_fst_setMember hmem with heq | hrest
      · exact hname heq
      · exact h.1 hrest

section

variable {host : Host} {relay : RelayService} {ids : Set JsString} {p q : Process} {event : Event}
  {stored : JsString → List Members}

theorem recorded_fresh : Recorded (fun _ ↦ []) (.fresh .empty) where
  committed := fun key ↦ rfl
  content := fun key n bundle h ↦ by simp at h
  held := fun key name h ↦ (List.not_mem_nil h).elim
  nodup := fun key ↦ List.nodup_nil

/-- An event that stores no revision keeps the record. -/
theorem Recorded.keep (h : Recorded stored p) (horderly : Orderly host ids p)
    (hkeys : Set.InjOn (actionKey host) ids) (hstep : Steps host relay p event q)
    (hne : event ≠ .crash) (hstore : q.store.actions = p.store.actions) : Recorded stored q := by
  constructor
  · rw [hstore]
    exact h.committed
  · rw [hstore]
    exact h.content
  · intro key name hname
    rw [hstore] at hname
    obtain ⟨n, rfl, hheld⟩ := h.held key name hname
    exact ⟨n, rfl, (hheld.step horderly hkeys hstep fun heq ↦ absurd heq hne).1⟩
  · rw [hstore]
    exact h.nodup

/-- Every event but a crash keeps the record of what has been stored. -/
theorem Recorded.step (h : Recorded stored p) (horderly : Orderly host ids p)
    (hkeys : Set.InjOn (actionKey host) ids) (hstep : Steps host relay p event q)
    (hne : event ≠ .crash) :
    Recorded (fun key ↦ stored key ++ (commitOf p key event).toList) q := by
  have hheld (key : JsString) (n : Nat) (hn : Held p key n) : Held q key n :=
    (hn.step horderly hkeys hstep fun heq ↦ absurd heq hne).1
  have hnone (hcommit : ∀ key, commitOf p key event = none)
      (hstore : q.store.actions = p.store.actions) :
      Recorded (fun key ↦ stored key ++ (commitOf p key event).toList) q := by
    simp only [hcommit, Option.toList_none, List.append_nil]
    exact h.keep horderly hkeys hstep hne hstore
  cases hstep with
  | start => exact hnone (fun _ ↦ rfl) rfl
  | crash => exact absurd rfl hne
  | @advance i phase stepped hcall hadvance =>
    cases storeStep_of_advances hadvance with
    | same hphase hactions =>
      refine hnone (fun key ↦ ?_) hactions
      rw [commitOf, hcall]
      split
      · next heq =>
        cases heq
        exact absurd rfl (hphase _ _ _ _ _)
      · rfl
    | @write writer ticket written metadata next hphase hactions =>
      subst hphase
      obtain ⟨-, hextends, hnext⟩ := horderly.calls i _ hcall
      have hrevision := hextends.revision
      have hcommit (key : JsString) : commitOf p key (.advance i) =
          if next = .metadata ∧ written = key then some writer.bundle else none := by
        rw [commitOf, hcall]
        cases next with
        | metadata => simp
        | bundle => rfl
        | current => rfl
      have hself : stepped.store.actions written =
          (p.store.actions written).afterWrite writer metadata next := by
        rw [hactions, actions_update_self]
      have hother {key : JsString} (hkey : key ≠ written) :
          stepped.store.actions key = p.store.actions key ∧ commitOf p key (.advance i) = none := by
        rw [hactions, actions_update_ne hkey, hcommit, if_neg fun h ↦ hkey h.2.symm]
        exact ⟨rfl, rfl⟩
      constructor
      case committed =>
        intro key
        by_cases hkey : key = written
        · subst hkey
          rw [hself, committedRevision_afterWrite, hcommit]
          cases next with
          | metadata => simp [hrevision, h.committed]
          | bundle => simp [h.committed]
          | current => simp [h.committed]
        · obtain ⟨hsame, hno⟩ := hother hkey
          rw [hsame, hno, Option.toList_none, List.append_nil, h.committed]
      case content =>
        intro key n bundle hbundle
        by_cases hkey : key = written
        · subst hkey
          rw [hself, revisionOf_afterWrite]
          rw [hcommit] at hbundle
          cases next with
          | metadata =>
            rw [if_neg fun h ↦ nomatch h.1]
            simp only [true_and, if_pos, Option.toList_some] at hbundle
            rcases getElem?_append_eq_some hbundle with ⟨rfl, rfl⟩ | hold
            · rw [← h.committed, ← hrevision]
              exact hnext.1
            · exact h.content key n bundle hold
          | bundle =>
            simp only [reduceCtorEq, false_and, if_false, Option.toList_none,
              List.append_nil] at hbundle
            have hlt := (List.getElem?_eq_some_iff.mp hbundle).1
            rw [← h.committed] at hlt
            rw [if_neg (by omega)]
            exact h.content key n bundle hbundle
          | current =>
            rw [if_neg fun h ↦ nomatch h.1]
            simp only [reduceCtorEq, false_and, if_false, Option.toList_none,
              List.append_nil] at hbundle
            exact h.content key n bundle hbundle
        · obtain ⟨hsame, hno⟩ := hother hkey
          rw [hno, Option.toList_none, List.append_nil] at hbundle
          rw [hsame]
          exact h.content key n bundle hbundle
      case held =>
        intro key name hname
        by_cases hkey : key = written
        · subst hkey
          rw [hself] at hname
          cases next with
          | bundle =>
            rcases mem_map_fst_setMember hname with rfl | hold
            · refine ⟨metadata.revision, rfl,
                .inr ⟨i, writer, ticket, metadata, .current, ?_, nofun, rfl⟩⟩
              cases hadvance
              exact getElem?_set_self hcall _
            · obtain ⟨n, rfl, hn⟩ := h.held key name hold
              exact ⟨n, rfl, hheld key n hn⟩
          | current =>
            obtain ⟨n, rfl, hn⟩ := h.held key name hname
            exact ⟨n, rfl, hheld key n hn⟩
          | metadata =>
            obtain ⟨n, rfl, hn⟩ := h.held key name hname
            exact ⟨n, rfl, hheld key n hn⟩
        · rw [(hother hkey).1] at hname
          obtain ⟨n, rfl, hn⟩ := h.held key name hname
          exact ⟨n, rfl, hheld key n hn⟩
      case nodup =>
        intro key
        by_cases hkey : key = written
        · subst hkey
          rw [hself]
          cases next with
          | bundle => exact nodup_map_fst_setMember (h.nodup key) _ _
          | current => exact h.nodup key
          | metadata => exact h.nodup key
        · rw [(hother hkey).1]
          exact h.nodup key

/-- A crash-free run stores what it says. -/
theorem run_recorded {events : List Event}
    (h : runEvents (Process.step host relay) p events = some q)
    (hkeys : Set.InjOn (actionKey host) ids)
    (hevents : ∀ event ∈ events, event.Writes ids ∧ event ≠ .crash) (horderly : Orderly host ids p)
    (hrecorded : Recorded stored p) :
    Orderly host ids q ∧
      Recorded (fun key ↦ stored key ++ storedIn host relay key p events) q := by
  induction events generalizing p stored with
  | nil =>
    cases h
    simp only [storedIn, List.append_nil]
    exact ⟨horderly, hrecorded⟩
  | cons event rest ih =>
    rw [runEvents] at h
    cases hstep : p.step host relay event with
    | none => simp [hstep] at h
    | some middle =>
      simp only [hstep] at h
      obtain ⟨hwrites, hne⟩ := hevents event List.mem_cons_self
      have hsteps := steps_of_step hstep
      obtain ⟨horderly', hrecorded'⟩ := ih h
        (fun other hother ↦ hevents other (List.mem_cons_of_mem event hother))
        (horderly.step hkeys hwrites hsteps) (hrecorded.step horderly hkeys hsteps hne)
      refine ⟨horderly', ?_⟩
      simp only [storedIn, hstep, ← List.append_assoc]
      exact hrecorded'

end

/-- No call is in progress. -/
def Quiet (p : Process) : Prop := ∀ phase ∈ p.calls, phase.isRunning = false

/-- The entry that describes a bundle under a revision number. -/
def describes (revision : Nat) (bundle : Members) : RevisionEntry :=
  { revisionEntry [] (clone (.obj bundle)) with revision }

theorem revisionEntry_eq {name : JsString} {content : Json} {n : Nat}
    (h : (revisionEntry name content).revision = n) :
    revisionEntry name content = { revisionEntry [] content with revision := n } := by
  subst h
  rfl

theorem readEntries_eq {key : JsString} {s : Store} {names : List JsString}
    {content : JsString → Json}
    (h : ∀ name ∈ names, member (s.actions key).revisions name = some (content name)) :
    readEntries key names s =
      (.resolved (names.map fun name ↦ revisionEntry name (content name)), s) := by
  induction names with
  | nil => rfl
  | cons name rest ih =>
    have hname := h name List.mem_cons_self
    have hrest := ih fun other hother ↦ h other (List.mem_cons_of_mem name hother)
    rw [readEntries, Call.run_bind_resolved (Call.run_read _)]
    rw [hname]
    dsimp only
    rw [Call.run_bind_resolved hrest]
    rfl

section

variable {host : Host} {relay : RelayService} {ids : Set JsString} {p q : Process}
  {stored : JsString → List Members} {actionId key : JsString}

/-- The listing of an action has an entry for each of its revision files. -/
theorem listRevisions_eq (horderly : Orderly host ids p)
    (hkey : paths host (.actionId actionId) = .ok key) {metadata : Metadata}
    (hmetadata : (p.store.actions key).metadata = some metadata) {content : JsString → Json}
    (hcontent : ∀ name ∈ revisionNames (p.store.actions key),
      member (p.store.actions key).revisions name = some (content name)) :
    listRevisions host actionId p.store =
      (.resolved ((revisionNames (p.store.actions key)).map fun name ↦
        revisionEntry name (content name)), p.store) := by
  have hfiles := horderly.files key
  have hcommitted : metadata.revision = committedRevision (p.store.actions key) := by
    rw [committedRevision, hmetadata]
    rfl
  obtain ⟨bundle, hbundle⟩ := hfiles.revisions metadata.revision
    (hfiles.positive metadata hmetadata) (Nat.le_of_eq hcommitted)
  obtain ⟨current, hcurrent⟩ := hfiles.current metadata hmetadata
  have hget : getAction host (.actionId actionId) p.store =
      (.resolved { metadata, bundle, current }, p.store) := by
    unfold revisionOf at hbundle
    simp [getAction, readFile, hkey, Call.run_bind, hmetadata, hbundle, hcurrent]
  rw [listRevisions, hkey, Call.run_bind_resolved (Call.run_ok key),
    Call.run_bind_resolved hget, Call.run_bind_resolved (Call.run_read _)]
  exact readEntries_eq hcontent

/-- A directory of a quiet process has exactly the revisions that the metadata covers. -/
theorem Recorded.mem_names (h : Recorded stored p) (horderly : Orderly host ids p)
    (hquiet : Quiet p) (key name : JsString) :
    name ∈ (p.store.actions key).revisions.map Prod.fst ↔
      name ∈ firstFiles (stored key).length := by
  rw [← h.committed, firstFiles]
  constructor
  · intro hname
    obtain ⟨n, rfl, ⟨hpositive, hle⟩ | ⟨i, writer, ticket, metadata, next, hcall, -⟩⟩ :=
      h.held key name hname
    · exact List.mem_map.mpr
        ⟨n - 1, List.mem_range.mpr (by omega), by rw [Nat.sub_add_cancel hpositive]⟩
    · cases hquiet _ (List.mem_of_getElem? hcall)
  · intro hname
    obtain ⟨i, hi, rfl⟩ := List.mem_map.mp hname
    have hlt := List.mem_range.mp hi
    obtain ⟨bundle, hbundle⟩ := (horderly.files key).revisions (i + 1) (by omega) (by omega)
    exact List.mem_map.mpr ⟨_, mem_of_member_eq hbundle, rfl⟩

/-- A listing has numbers of six digits only. -/
theorem revision_le_lastListed {name : JsString} (h : isRevisionName name = true) (bundle : Json) :
    (revisionEntry name bundle).revision ≤ lastListed := by
  rw [isRevisionName, Bool.and_eq_true, Bool.and_eq_true, decide_eq_true_eq, List.all_eq_true] at h
  have hlt := digitsValue_lt h.1.2
  rw [h.1.1] at hlt
  show digitsValue (name.take 6) ≤ lastListed
  unfold lastListed
  omega

/-- In a quiet process that has not crashed, the listing of an action has one entry for each
revision, in their order, exactly when the last one has six digits. -/
theorem Recorded.listing (h : Recorded stored p) (horderly : Orderly host ids p)
    (hquiet : Quiet p) (hkey : paths host (.actionId actionId) = .ok key) {metadata : Metadata}
    (hmetadata : (p.store.actions key).metadata = some metadata) :
    metadata.revision = (stored key).length ∧
      ∃ entries, listRevisions host actionId p.store = (.resolved entries, p.store) ∧
        (entries = (stored key).mapIdx (fun i bundle ↦ describes (i + 1) bundle) ↔
          metadata.revision ≤ lastListed) ∧
        ∀ entry ∈ entries, entry.revision ≤ lastListed := by
  have hrevision : metadata.revision = (stored key).length := by
    rw [← h.committed, committedRevision, hmetadata]
    rfl
  have hpositive := (horderly.files key).positive metadata hmetadata
  have hpresent : ∀ name ∈ revisionNames (p.store.actions key), ∃ bundle,
      member (p.store.actions key).revisions name = some bundle := by
    intro name hname
    obtain ⟨hmem, -⟩ := mem_revisionNames.mp hname
    rw [h.mem_names horderly hquiet, firstFiles] at hmem
    obtain ⟨i, hi, rfl⟩ := List.mem_map.mp hmem
    have hlt := List.mem_range.mp hi
    rw [← h.committed] at hlt
    exact (horderly.files key).revisions (i + 1) (by omega) (by omega)
  have : Nonempty Json := ⟨.null⟩
  choose! content hcontent using hpresent
  have hlist := listRevisions_eq horderly hkey hmetadata hcontent
  refine ⟨hrevision, _, hlist, ?_, ?_⟩
  · constructor
    · intro hcomplete
      -- the last entry is in the listing, so its number has six digits
      have hlast : (stored key).length - 1 < (stored key).length := by omega
      have hmem : describes ((stored key).length - 1 + 1) (stored key)[(stored key).length - 1] ∈
          (stored key).mapIdx (fun i bundle ↦ describes (i + 1) bundle) :=
        List.mem_mapIdx.mpr ⟨_, hlast, rfl⟩
      rw [← hcomplete] at hmem
      obtain ⟨name, hname, hentry⟩ := List.mem_map.mp hmem
      have hle := revision_le_lastListed (mem_revisionNames.mp hname).2 (content name)
      rw [hentry] at hle
      have hnumber : (describes ((stored key).length - 1 + 1)
          (stored key)[(stored key).length - 1]).revision = (stored key).length - 1 + 1 := rfl
      omega
    · intro hle
      have hwrites := revisionNames_eq (h.nodup key) (h.mem_names horderly hquiet key)
        (hrevision ▸ hle)
      rw [hwrites] at hcontent ⊢
      apply List.ext_getElem?
      intro i
      rw [firstFiles, List.map_map, List.getElem?_map, List.getElem?_mapIdx]
      cases hstored : (stored key)[i]? with
      | none =>
        have hlength := List.getElem?_eq_none_iff.mp hstored
        rw [List.getElem?_eq_none (by simpa using hlength)]
        rfl
      | some bundle =>
        have hlt := (List.getElem?_eq_some_iff.mp hstored).1
        have hmem : revisionFile (i + 1) ∈ firstFiles (stored key).length :=
          List.mem_map.mpr ⟨i, List.mem_range.mpr hlt, rfl⟩
        have hsame : content (revisionFile (i + 1)) = clone (.obj bundle) :=
          Option.some.inj ((hcontent _ hmem).symm.trans (h.content key i bundle hstored))
        have hentry := revisionEntry_eq (revision_revisionEntry
          (isRevisionName_revisionFile.mpr (show i + 1 ≤ lastListed by omega))
          (clone (.obj bundle)))
        rw [List.getElem?_range hlt, Option.map_some, Option.map_some, Function.comp_apply, hsame,
          hentry, describes]
  · intro entry hentry
    obtain ⟨name, hname, rfl⟩ := List.mem_map.mp hentry
    exact revision_le_lastListed (mem_revisionNames.mp hname).2 _

end

/-- In every crash-free run on ids with bytes of their own and every state of it without an
operation in progress, the bundles that the run has stored for an action are as many as its
metadata says, and `listRevisions` lists them all, one entry each in the order of their numbers,
exactly when there are at most 999999. -/
theorem listRevisions_complete_iff (host : Host) (relay : RelayService) (ids : Set JsString)
    (hids : Set.InjOn utf8 ids) (hsha : Set.InjOn host.sha256 (utf8 '' ids))
    {events : List Event} {p : Process}
    (hevents : ∀ event ∈ events, event.Writes ids ∧ event ≠ .crash)
    (hrun : runEvents (Process.step host relay) (.fresh .empty) events = some p)
    (hquiet : Quiet p) {actionId key : JsString}
    (hkey : paths host (.actionId actionId) = .ok key) {metadata : Metadata}
    (hmetadata : (p.store.actions key).metadata = some metadata) :
    metadata.revision = (storedIn host relay key (.fresh .empty) events).length ∧
      ∃ entries, listRevisions host actionId p.store = (.resolved entries, p.store) ∧
        (entries = (storedIn host relay key (.fresh .empty) events).mapIdx
            (fun i bundle ↦ describes (i + 1) bundle) ↔
          metadata.revision ≤ 999999) := by
  have hkeys := injOn_actionKey hids hsha
  obtain ⟨horderly, hrecorded⟩ := run_recorded hrun hkeys hevents orderly_fresh recorded_fresh
  obtain ⟨hrevision, entries, hlist, hiff, -⟩ :=
    hrecorded.listing horderly hquiet hkey hmetadata
  exact ⟨hrevision, entries, hlist, hiff⟩

/-! ### A history of a million revisions -/

section

variable {host : Host} {relay : RelayService} {ids : Set JsString} {p : Process}
  {store : Store} {locks : Locks JsString} {calls : List Phase}

/-- A step of the last call. -/
theorem step_last {phase : Phase} {stepped : Stepped}
    (h : advance host relay store locks phase = some stepped) :
    Process.step host relay ⟨store, locks, calls ++ [phase]⟩ (.advance calls.length) =
      some ⟨stepped.store, stepped.locks, calls ++ [stepped.phase]⟩ := by
  rw [Process.step, List.getElem?_concat_length]
  simp only [h, Option.map_some, Option.some_inj]
  rw [List.set_append_right _ _ (Nat.le_refl _), Nat.sub_self]
  rfl

/-- A lock of a quiet process is free. -/
theorem canEnter_of_quiet (h : LocksOk p) (hquiet : Quiet p) (name : JsString) :
    (p.locks.enqueue name).canEnter p.locks.tickets.length = true := by
  have hname : (p.locks.enqueue name).nameOf p.locks.tickets.length = some name := by
    rw [Locks.nameOf_enqueue, if_pos rfl]
  rw [(h.wellFormed.enqueue name).canEnter_iff hname]
  intro before hlt _ hopen
  rw [Locks.open_enqueue] at hopen
  obtain ⟨i, phase, hcall, hticket⟩ := h.owned before (hopen.resolve_right (by omega))
  have hended := hquiet phase (List.mem_of_getElem? hcall)
  cases phase with
  | settled result => cases hticket
  | crashed => cases hticket
  | _ => cases hended

/-- A revision is appended by a call that runs alone. -/
theorem append_alone (horderly : Orderly host ids p) (hquiet : Quiet p) {r : NewRevision}
    (hnew : r.remembered = none) {key : JsString}
    (hkey : paths host (.actionId r.actionId) = .ok key) {metadata : Metadata}
    (hmetadata : (p.store.actions key).metadata = some metadata) :
    ∃ q, runEvents (Process.step host relay) p
        (.start (.appendRevision r) :: List.replicate 8 (.advance p.calls.length)) = some q ∧
      Quiet q ∧ q.calls.length = p.calls.length + 1 ∧
      ∃ next, (q.store.actions key).metadata = some next ∧
        next.revision = metadata.revision + 1 := by
  have hfiles := horderly.files key
  have hcommitted : metadata.revision = committedRevision (p.store.actions key) := by
    rw [committedRevision, hmetadata]
    rfl
  obtain ⟨bundle, hbundle⟩ := hfiles.revisions metadata.revision
    (hfiles.positive metadata hmetadata) (Nat.le_of_eq hcommitted)
  obtain ⟨current, hcurrent⟩ := hfiles.current metadata hmetadata
  have hduplicate : r.isDuplicate metadata = false := by rw [NewRevision.isDuplicate, hnew]
  unfold revisionOf at hbundle
  have hqueue : advance host relay p.store p.locks (.queueing (.store (.append r none))) =
      some ⟨p.store, p.locks.enqueue r.actionId,
        .waiting (.store (.append r none)) p.locks.tickets.length⟩ := rfl
  have henter : advance host relay p.store (p.locks.enqueue r.actionId)
      (.waiting (.store (.append r none)) p.locks.tickets.length) =
      some ⟨p.store, p.locks.enqueue r.actionId,
        .reading (.append r none p.locks.tickets.length) (.actionId r.actionId) key .start⟩ := by
    rw [advance, if_pos (canEnter_of_quiet horderly.locks hquiet r.actionId)]
    simp only [enter, hkey]
  have hread : advance host relay p.store (p.locks.enqueue r.actionId)
      (.reading (.append r none p.locks.tickets.length) (.actionId r.actionId) key .start) =
      some ⟨p.store, p.locks.enqueue r.actionId,
        .reading (.append r none p.locks.tickets.length) (.actionId r.actionId) key
          (.metadata metadata)⟩ := by
    simp only [advance, read, hmetadata]
  have hread' : advance host relay p.store (p.locks.enqueue r.actionId)
      (.reading (.append r none p.locks.tickets.length) (.actionId r.actionId) key
        (.metadata metadata)) =
      some ⟨p.store, p.locks.enqueue r.actionId,
        .reading (.append r none p.locks.tickets.length) (.actionId r.actionId) key
          (.bundle metadata bundle)⟩ := by
    simp only [advance, read, hbundle]
  have hfound : advance host relay p.store (p.locks.enqueue r.actionId)
      (.reading (.append r none p.locks.tickets.length) (.actionId r.actionId) key
        (.bundle metadata bundle)) =
      some ⟨p.store, p.locks.enqueue r.actionId,
        .writing (.append r none) p.locks.tickets.length key (r.metadata metadata) .bundle⟩ := by
    simp only [advance, read, hcurrent, found, hduplicate, Bool.false_eq_true, if_false]
  have hstart : p.step host relay (.start (.appendRevision r)) =
      some ⟨p.store, p.locks, p.calls ++ [.queueing (.store (.append r none))]⟩ := rfl
  have hwrite (store : Store) : advance host relay store (p.locks.enqueue r.actionId)
      (.writing (.append r none) p.locks.tickets.length key (r.metadata metadata) .bundle) =
      some ⟨store.writeRevision key (revisionFile (r.metadata metadata).revision) r.bundle,
        p.locks.enqueue r.actionId,
        .writing (.append r none) p.locks.tickets.length key (r.metadata metadata) .current⟩ := rfl
  have hwrite' (store : Store) : advance host relay store (p.locks.enqueue r.actionId)
      (.writing (.append r none) p.locks.tickets.length key (r.metadata metadata) .current) =
      some ⟨store.writeCurrent key r.current, p.locks.enqueue r.actionId,
        .writing (.append r none) p.locks.tickets.length key (r.metadata metadata) .metadata⟩ := rfl
  have hcommit (store : Store) : advance host relay store (p.locks.enqueue r.actionId)
      (.writing (.append r none) p.locks.tickets.length key (r.metadata metadata) .metadata) =
      some ⟨store.writeMetadata key (r.metadata metadata),
        (p.locks.enqueue r.actionId).release p.locks.tickets.length,
        .settled (.appended r (.revision
          { metadata := r.metadata metadata, bundle := r.bundle, current := r.current }))⟩ := rfl
  have hrun := (runEvents_cons hstart (List.replicate 8 (.advance p.calls.length))).trans <|
    (runEvents_cons (step_last hqueue) (List.replicate 7 (.advance p.calls.length))).trans <|
    (runEvents_cons (step_last henter) (List.replicate 6 (.advance p.calls.length))).trans <|
    (runEvents_cons (step_last hread) (List.replicate 5 (.advance p.calls.length))).trans <|
    (runEvents_cons (step_last hread') (List.replicate 4 (.advance p.calls.length))).trans <|
    (runEvents_cons (step_last hfound) (List.replicate 3 (.advance p.calls.length))).trans <|
    (runEvents_cons (step_last (hwrite _)) (List.replicate 2 (.advance p.calls.length))).trans <|
    (runEvents_cons (step_last (hwrite' _)) (List.replicate 1 (.advance p.calls.length))).trans <|
    runEvents_cons (step_last (hcommit _)) []
  refine ⟨_, hrun, ?_, ?_, (r.metadata metadata).stored, ?_, rfl⟩
  · intro phase hphase
    rcases List.mem_append.mp hphase with hold | hlast
    · exact hquiet phase hold
    · rw [List.mem_singleton.mp hlast]
      rfl
  · exact List.length_append
  · rw [Store.writeMetadata, actions_update_self]

end

/-- An action is created and the given number of revisions is appended to it, one after another. -/
def history : Nat → List Event
  | 0 => .start (.createAction storeAction) :: List.replicate 5 (.advance 0)
  | appended + 1 => history appended ++
      .start (.appendRevision (storeRevision "r2")) :: List.replicate 8 (.advance (appended + 1))

theorem history_events (appended : Nat) :
    ∀ event ∈ history appended, event.Writes {js "a1"} ∧ event ≠ .crash := by
  have hadvances (count call : Nat) (event : Event)
      (h : event ∈ List.replicate count (.advance call)) :
      event.Writes {js "a1"} ∧ event ≠ .crash := by
    rw [List.eq_of_mem_replicate h]
    exact ⟨trivial, nofun⟩
  induction appended with
  | zero =>
    intro event hevent
    rcases List.mem_cons.mp hevent with rfl | hrest
    · exact ⟨writes_of_writesOnly rfl, nofun⟩
    · exact hadvances 5 0 event hrest
  | succ appended ih =>
    intro event hevent
    rcases List.mem_append.mp hevent with hold | hnew
    · exact ih event hold
    · rcases List.mem_cons.mp hnew with rfl | hrest
      · exact ⟨writes_of_writesOnly rfl, nofun⟩
      · exact hadvances 8 (appended + 1) event hrest

theorem paths_history :
    paths sampleHost (.actionId (js "a1")) = .ok (actionKey sampleHost (js "a1")) := rfl

/-- A history ends with no call in progress. -/
theorem history_quiet (appended : Nat) : ∃ p,
    runEvents (Process.step sampleHost sampleRelay) (.fresh .empty) (history appended) = some p ∧
      Quiet p ∧ p.calls.length = appended + 1 ∧
      ∃ metadata, (p.store.actions (actionKey sampleHost (js "a1"))).metadata = some metadata ∧
        metadata.revision = appended + 1 := by
  induction appended with
  | zero =>
    refine ⟨_, rfl, ?_, rfl, _, rfl, rfl⟩
    intro phase hphase
    rw [List.mem_singleton.mp hphase]
    rfl
  | succ appended ih =>
    obtain ⟨p, hrun, hquiet, hlength, metadata, hmetadata, hrevision⟩ := ih
    obtain ⟨horderly, -⟩ := run_recorded hrun (Set.injOn_singleton _ _)
      (history_events appended) orderly_fresh recorded_fresh
    obtain ⟨q, happend, hquiet', hlength', next, hnext, hrevision'⟩ :=
      append_alone (r := storeRevision "r2") horderly hquiet rfl paths_history hmetadata
    rw [hlength] at happend
    refine ⟨q, ?_, hquiet', by rw [hlength', hlength], next, hnext, by rw [hrevision', hrevision]⟩
    rw [history, runEvents_append hrun, happend]

/-- After a million revisions the listing does not have the last one. -/
theorem listRevisions_millionth : ∃ p,
    runEvents (Process.step sampleHost sampleRelay) (.fresh .empty) (history 999999) = some p ∧
      Quiet p ∧ ∃ metadata,
        (p.store.actions (actionKey sampleHost (js "a1"))).metadata = some metadata ∧
        metadata.revision = 1000000 ∧
        ∃ entries, listRevisions sampleHost (js "a1") p.store = (.resolved entries, p.store) ∧
          ∀ entry ∈ entries, entry.revision ≠ metadata.revision := by
  obtain ⟨p, hrun, hquiet, -, metadata, hmetadata, hrevision⟩ := history_quiet 999999
  obtain ⟨horderly, hrecorded⟩ := run_recorded hrun (Set.injOn_singleton _ _)
    (history_events 999999) orderly_fresh recorded_fresh
  obtain ⟨-, entries, hlist, -, hsix⟩ := hrecorded.listing horderly hquiet paths_history hmetadata
  refine ⟨p, hrun, hquiet, metadata, hmetadata, hrevision, entries, hlist, ?_⟩
  intro entry hentry heq
  have hle := hsix entry hentry
  unfold lastListed at hle
  omega

theorem listRevisions_complete_iff_history : ∃ p,
    runEvents (Process.step sampleHost sampleRelay) (.fresh .empty) (history 2) = some p ∧
      ∃ entries, listRevisions sampleHost (js "a1") p.store = (.resolved entries, p.store) ∧
        entries.length = 3 := by
  obtain ⟨p, hrun, hquiet, -, metadata, hmetadata, hrevision⟩ := history_quiet 2
  obtain ⟨hlength, entries, hlist, hiff⟩ := listRevisions_complete_iff sampleHost sampleRelay
    {js "a1"} (Set.injOn_singleton _ _) injOn_bytes_singleton (history_events 2) hrun hquiet
    paths_history hmetadata
  refine ⟨p, hrun, entries, hlist, ?_⟩
  rw [hiff.mpr (by omega), List.length_mapIdx, ← hlength, hrevision]

end TimeProofs.Relay
