import SecPlatform.DurableExecution.Contract
import SecPlatform.Library.Lemmas.JsonObject

/-!
# What the observing loop knows after each record

`Observed` says what the variables of the loop mean in terms of the records read so far. Each kind of
record keeps it.
-/

namespace SecPlatform.DurableExecution

open Contracts

variable {intent : Sealed IntentFields}

/-! ## Records of one kind -/

namespace DurableRecord

def start? (r : DurableRecord) : Option (Sealed AttemptStartFields) :=
  match r.body with
  | .attemptStart fields => some (r.as fields)
  | _ => none

def settlement? (r : DurableRecord) : Option (Sealed ProviderSettlementFields) :=
  match r.body with
  | .providerSettlement fields => some (r.as fields)
  | _ => none

def readback? (r : DurableRecord) : Option (Sealed DomainReadbackFields) :=
  match r.body with
  | .domainReadback fields => some (r.as fields)
  | _ => none

def lostHandle? (r : DurableRecord) : Option (Sealed LostHandleFields) :=
  match r.body with
  | .lostHandle fields => some (r.as fields)
  | _ => none

def resolution? (r : DurableRecord) : Option (Sealed AttemptResolutionFields) :=
  match r.body with
  | .attemptResolution fields => some (r.as fields)
  | _ => none

def isIntent (r : DurableRecord) : Bool :=
  match r.body with
  | .intent _ => true
  | _ => false

end DurableRecord

def starts (records : List DurableRecord) : List (Sealed AttemptStartFields) := records.filterMap DurableRecord.start?

theorem start_mem {records : List DurableRecord} {s : Sealed AttemptStartFields} (h : s ∈ starts records) :
    ∃ record ∈ records, record.body = .attemptStart s.fields := by
  obtain ⟨record, hrecord, hs⟩ := List.mem_filterMap.mp h
  unfold DurableRecord.start? at hs
  split at hs
  · rename_i fields hbody
    cases hs
    exact ⟨record, hrecord, hbody⟩
  · cases hs

def resolutions (records : List DurableRecord) : List (Sealed AttemptResolutionFields) :=
  records.filterMap DurableRecord.resolution?

/-- The provider settlements of one attempt. -/
def settlementsOf (nonce : Digest) (records : List DurableRecord) : List (Sealed ProviderSettlementFields) :=
  (records.filterMap DurableRecord.settlement?).filter fun s => s.fields.attemptNonceDigest = nonce

def readbacksOf (nonce : Digest) (records : List DurableRecord) : List (Sealed DomainReadbackFields) :=
  (records.filterMap DurableRecord.readback?).filter fun s => s.fields.attemptNonceDigest = nonce

def lostHandlesOf (nonce : Digest) (records : List DurableRecord) : List (Sealed LostHandleFields) :=
  (records.filterMap DurableRecord.lostHandle?).filter fun s => s.fields.attemptNonceDigest = nonce

def startedNonces (records : List DurableRecord) : List Digest :=
  (starts records).map fun s => s.fields.attemptNonceDigest

def resolvedNonces (records : List DurableRecord) : List Digest :=
  (resolutions records).map fun s => s.fields.attemptNonceDigest

/-- The attempts that were started and not resolved. -/
def activeNonces (records : List DurableRecord) : List Digest :=
  (startedNonces records).filter fun nonce => nonce ∉ resolvedNonces records

def AttemptObservation.nonce (a : AttemptObservation) : Digest := a.start.fields.attemptNonceDigest

/-! ## What one record needs -/

@[simp] theorem failContract_ne_ok {α : Type} {kind : ContractFailureKind} {message : Text} {a : α} :
    failContract kind message ≠ .ok a := by simp [failContract]

theorem digestListText_injective : Function.Injective digestListText := by
  intro xs ys h
  have hexact (ds : List Digest) : (Json.arr (ds.map digestValue) : Value).Exact := by
    simp only [Json.Exact]
    induction ds with
    | nil => trivial
    | cons d ds ih => exact ⟨trivial, ih⟩
  have hlist := Json.render_injective (hexact xs) (hexact ys) h
  simp only [Json.arr.injEq] at hlist
  refine List.map_injective_iff.mpr ?_ hlist
  intro a b hab
  simp only [digestValue, Json.str.injEq] at hab
  exact Subtype.ext hab

/-- The conditions on an attempt start. -/
structure StartAllowed (intent : Sealed IntentFields) (st : Observing) (start : AttemptStartFields) : Prop where
  inactive : st.active = none
  initial : st.latestResolution = none → start.retryAdmissionReferenceDigest = none
  successor : ∀ resolution, st.latestResolution = some resolution →
    resolution.fields.resolutionKind = .retryAdmissionReference ∧
      start.retryAdmissionReferenceDigest = some resolution.fields.resolutionReferenceDigest
  plan : start.executionPlanReferenceDigest = intent.fields.executionPlanReferenceDigest
  deadline : start.deadlineAtUnixMs ≤ intent.fields.deadlineAtUnixMs
  predecessor : ∀ previous, st.previousAttemptStart = some previous →
    start.deadlineAtUnixMs ≤ previous.fields.deadlineAtUnixMs
  nonce : start.attemptNonceDigest ∉ st.attemptNonces

theorem observeAttemptStart_ok {st st' : Observing} {record : DurableRecord} {start : AttemptStartFields} :
    observeAttemptStart intent st record start = .ok st' ↔ StartAllowed intent st start ∧ st' = { st with
      previous := some record
      active := some ⟨record.as start, [], none, none⟩
      previousAttemptStart := some (record.as start)
      attemptNonces := start.attemptNonceDigest :: st.attemptNonces } := by
  unfold observeAttemptStart Observing.resolutionKind
  constructor
  · intro h
    split at h
    · cases h
    rename_i hactive
    split at h
    · cases h
    rename_i hinitial
    split at h
    · cases h
    rename_i hsuccessor
    split at h
    · cases h
    rename_i hplan
    split at h
    · cases h
    rename_i hdeadline
    split at h
    · cases h
    rename_i hnonce
    simp only [not_or, not_not] at hactive hplan hdeadline
    refine ⟨⟨hactive.1, ?_, ?_, hplan, not_lt.mp hdeadline.1, ?_, hnonce⟩, (Except.ok.inj h).symm⟩
    · intro hnone
      by_contra hne
      exact hinitial ⟨hnone, hne⟩
    · intro resolution hsome
      rw [hsome] at hactive hsuccessor
      have hkind : resolution.fields.resolutionKind = .retryAdmissionReference := by
        cases hk : resolution.fields.resolutionKind with
        | ownerTerminalReference => exact absurd (by simp [hk]) hactive.2
        | retryAdmissionReference => rfl
      refine ⟨hkind, ?_⟩
      by_contra hne
      exact hsuccessor ⟨by simp [hkind], by simpa using hne⟩
    · intro previous hprevious
      rw [hprevious] at hdeadline
      simpa using hdeadline.2
  · rintro ⟨⟨hactive, hinitial, hsuccessor, hplan, hdeadline, hpredecessor, hnonce⟩, rfl⟩
    have hkind : st.latestResolution.map (fun r => r.fields.resolutionKind) ≠ some .ownerTerminalReference := by
      intro h
      obtain ⟨resolution, hr, hk⟩ := Option.map_eq_some_iff.mp h
      rw [(hsuccessor resolution hr).1] at hk
      cases hk
    rw [if_neg (not_or.mpr ⟨not_not.mpr hactive, hkind⟩), if_neg fun h => h.2 (hinitial h.1), if_neg ?_,
      if_neg (not_not.mpr hplan), if_neg ?_, if_neg hnonce]
    · rintro (h | h)
      · omega
      · rw [Option.any_eq_true] at h
        obtain ⟨previous, hp, hlt⟩ := h
        have := hpredecessor previous hp
        simp only [decide_eq_true_eq] at hlt
        omega
    · rintro ⟨h, hne⟩
      obtain ⟨resolution, hr, _⟩ := Option.map_eq_some_iff.mp h
      rw [hr, (hsuccessor resolution hr).2] at hne
      exact hne rfl

/-- The conditions on a provider settlement of an attempt. -/
structure SettlementAllowed (active : AttemptObservation) (settlement : ProviderSettlementFields) : Prop where
  nonce : settlement.attemptNonceDigest = active.nonce
  present : active.lostHandle = none
  unread : active.domainReadback = none
  unique : ∀ other ∈ active.providerSettlements, other.fields.requirementId ≠ settlement.requirementId

theorem observeProviderSettlement_ok {st st' : Observing} {record : DurableRecord}
    {settlement : ProviderSettlementFields} :
    observeProviderSettlement st record settlement = .ok st' ↔
      ∃ active, st.active = some active ∧ SettlementAllowed active settlement ∧ st' = { st with
        previous := some record
        active := some { active with
          providerSettlements := active.providerSettlements ++ [record.as settlement] } } := by
  unfold observeProviderSettlement
  cases hactive : st.active with
  | none => simp
  | some active =>
      simp only [Option.some.injEq, exists_eq_left']
      constructor
      · intro h
        split at h
        · cases h
        rename_i hcond
        simp only [not_or, not_not, Bool.not_eq_true, List.any_eq_false, decide_eq_true_eq] at hcond
        exact ⟨⟨hcond.1, hcond.2.1, hcond.2.2.1, hcond.2.2.2⟩, (Except.ok.inj h).symm⟩
      · rintro ⟨⟨hnonce, hpresent, hunread, hunique⟩, rfl⟩
        rw [if_neg]
        simp only [not_or, not_not, Bool.not_eq_true, List.any_eq_false, decide_eq_true_eq]
        exact ⟨hnonce, hpresent, hunread, hunique⟩

theorem observeDomainReadback_ok {st st' : Observing} {record : DurableRecord} {readback : DomainReadbackFields} :
    observeDomainReadback st record readback = .ok st' ↔
      ∃ active, st.active = some active ∧ readback.attemptNonceDigest = active.nonce ∧
        active.domainReadback = none ∧ st' = { st with
          previous := some record
          active := some { active with domainReadback := some (record.as readback) } } := by
  unfold observeDomainReadback
  cases hactive : st.active with
  | none => simp
  | some active =>
      simp only [Option.some.injEq, exists_eq_left']
      constructor
      · intro h
        split at h
        · cases h
        rename_i hcond
        simp only [not_or, not_not] at hcond
        exact ⟨hcond.1, hcond.2, (Except.ok.inj h).symm⟩
      · rintro ⟨hnonce, hunread, rfl⟩
        rw [if_neg (by simp only [not_or, not_not]; exact ⟨hnonce, hunread⟩)]

theorem observeLostHandle_ok {st st' : Observing} {record : DurableRecord} {lostHandle : LostHandleFields} :
    observeLostHandle st record lostHandle = .ok st' ↔
      ∃ active, st.active = some active ∧ lostHandle.attemptNonceDigest = active.nonce ∧
        active.lostHandle = none ∧ active.domainReadback = none ∧ st' = { st with
          previous := some record
          active := some { active with lostHandle := some (record.as lostHandle) } } := by
  unfold observeLostHandle
  cases hactive : st.active with
  | none => simp
  | some active =>
      simp only [Option.some.injEq, exists_eq_left']
      constructor
      · intro h
        split at h
        · cases h
        rename_i hcond
        simp only [not_or, not_not] at hcond
        exact ⟨hcond.1, hcond.2.1, hcond.2.2, (Except.ok.inj h).symm⟩
      · rintro ⟨hnonce, hpresent, hunread, rfl⟩
        rw [if_neg (by simp only [not_or, not_not]; exact ⟨hnonce, hpresent, hunread⟩)]

/-- The conditions on a resolution of an attempt. -/
structure ResolutionAllowed (active : AttemptObservation) (resolution : AttemptResolutionFields) : Prop where
  nonce : resolution.attemptNonceDigest = active.nonce
  settlements : resolution.providerSettlementRecordDigests = active.providerRecordDigests
  readback : ∃ b, active.domainReadback = some b ∧ resolution.domainReadbackRecordDigest = some b.recordDigest

theorem assertAttemptResolution_ok {resolution : AttemptResolutionFields} {active : AttemptObservation} {u : Unit} :
    assertAttemptResolution resolution active = .ok u ↔
      resolution.providerSettlementRecordDigests = active.providerRecordDigests ∧
        ∃ b, active.domainReadback = some b ∧ resolution.domainReadbackRecordDigest = some b.recordDigest := by
  unfold assertAttemptResolution
  constructor
  · intro h
    split at h
    · cases h
    rename_i hrefs
    split at h
    · cases h
    rename_i hread
    simp only [not_or, not_not] at hrefs
    obtain ⟨b, hb⟩ := Option.ne_none_iff_exists'.mp hread
    exact ⟨digestListText_injective hrefs.1, b, hb, by rw [hrefs.2, hb]; rfl⟩
  · rintro ⟨hsettlements, b, hb, hread⟩
    rw [if_neg (by simp [hsettlements, hb, hread]), if_neg (by simp [hb])]

theorem observeAttemptResolution_ok {st st' : Observing} {record : DurableRecord}
    {resolution : AttemptResolutionFields} :
    observeAttemptResolution st record resolution = .ok st' ↔
      ∃ active, st.active = some active ∧ ResolutionAllowed active resolution ∧ st' = { st with
        previous := some record
        active := none
        latestResolution := some (record.as resolution) } := by
  unfold observeAttemptResolution
  cases hactive : st.active with
  | none => simp
  | some active =>
      simp only [Option.some.injEq, exists_eq_left']
      constructor
      · intro h
        split at h
        · cases h
        rename_i hnonce
        obtain ⟨_, hassert, h⟩ := bind_eq_ok.mp h
        obtain ⟨hsettlements, hread⟩ := assertAttemptResolution_ok.mp hassert
        exact ⟨⟨not_not.mp hnonce, hsettlements, hread⟩, (Except.ok.inj h).symm⟩
      · rintro ⟨⟨hnonce, hsettlements, hread⟩, rfl⟩
        rw [if_neg fun h => h hnonce, assertAttemptResolution_ok (u := ()).mpr ⟨hsettlements, hread⟩]
        rfl

/-- The conditions on the place of a record in the journal. -/
structure Chained (intent : Sealed IntentFields) (index : Nat) (st : Observing) (record : DurableRecord) : Prop where
  sequence : record.base.sequence = index
  previous : record.base.previousRecordDigest = st.previous.map DurableRecord.recordDigest
  operation : record.base.operationKeyDigest = intent.base.operationKeyDigest

/-- The case of a record behind the intent. -/
def observeBody (intent : Sealed IntentFields) (st : Observing) (record : DurableRecord) :
    Except ContractFailure Observing :=
  match record.body with
  | .intent _ => failContract .invalidTransition "journal contains a second intent."
  | .attemptStart start => observeAttemptStart intent st record start
  | .providerSettlement settlement => observeProviderSettlement st record settlement
  | .domainReadback readback => observeDomainReadback st record readback
  | .lostHandle lostHandle => observeLostHandle st record lostHandle
  | .attemptResolution resolution => observeAttemptResolution st record resolution

theorem observeRecord_ok {index : Nat} {st st' : Observing} {record : DurableRecord} (hindex : index ≠ 0) :
    observeRecord intent index st record = .ok st' ↔
      Chained intent index st record ∧ observeBody intent st record = .ok st' := by
  unfold observeRecord
  rw [if_neg hindex]
  constructor
  · intro h
    split at h
    · cases h
    rename_i hchain
    split at h
    · cases h
    rename_i hkey
    simp only [not_or, not_not] at hchain
    exact ⟨⟨hchain.1, hchain.2, not_not.mp hkey⟩, h⟩
  · rintro ⟨⟨hsequence, hprevious, hkey⟩, h⟩
    rw [if_neg (by simp only [not_or, not_not]; exact ⟨hsequence, hprevious⟩), if_neg (not_not.mpr hkey)]
    exact h

theorem observeRecord_zero {st st' : Observing} {record : DurableRecord} :
    observeRecord intent 0 st record = .ok st' ↔
      Chained intent 0 st record ∧ st' = { st with previous := some record } := by
  unfold observeRecord
  rw [if_pos rfl]
  constructor
  · intro h
    split at h
    · cases h
    rename_i hchain
    split at h
    · cases h
    rename_i hkey
    simp only [not_or, not_not] at hchain
    exact ⟨⟨hchain.1, hchain.2, not_not.mp hkey⟩, (Except.ok.inj h).symm⟩
  · rintro ⟨⟨hsequence, hprevious, hkey⟩, rfl⟩
    rw [if_neg (by simp only [not_or, not_not]; exact ⟨hsequence, hprevious⟩), if_neg (not_not.mpr hkey)]

theorem observeFrom_append {index : Nat} {st : Observing} (xs ys : List DurableRecord) :
    observeFrom intent index st (xs ++ ys) =
      observeFrom intent index st xs >>= fun st => observeFrom intent (index + xs.length) st ys := by
  induction xs generalizing index st with
  | nil => rfl
  | cons x xs ih =>
      simp only [List.cons_append, observeFrom]
      cases observeRecord intent index st x with
      | error e => rfl
      | ok st' =>
          simp only [ok_bind, ih, List.length_cons]
          rw [show index + 1 + xs.length = index + (xs.length + 1) by omega]

end SecPlatform.DurableExecution
