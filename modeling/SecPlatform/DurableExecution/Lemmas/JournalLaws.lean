import SecPlatform.DurableExecution.Lemmas.JournalInvariant

/-!
# The laws of an accepted journal
-/

namespace SecPlatform.DurableExecution

open Contracts

/-- What a sequence of records is as a journal of one operation. -/
structure LawfulJournal (intent : Sealed IntentFields) (records : List DurableRecord) : Prop where
  first : ∃ first rest, records = first :: rest ∧ first.body = .intent intent.fields
  /-- The journal starts at its one intent. -/
  oneIntent : ∀ pre record post, records = pre ++ record :: post → (record.isIntent ↔ pre = [])
  /-- Consecutive sequence numbers, and each record names the digest of the one before it. -/
  chain : ∀ pre record post, records = pre ++ record :: post → record.base.sequence = pre.length ∧
    record.base.previousRecordDigest = pre.getLast?.map DurableRecord.recordDigest
  oneActive : ∀ pre, pre <+: records → (activeNonces pre).length ≤ 1
  nonces : (startedNonces records).Nodup
  /-- No attempt outlives the operation or its predecessor. -/
  deadlines : ∀ pre record post start, records = pre ++ record :: post → record.body = .attemptStart start →
    start.deadlineAtUnixMs ≤ intent.fields.deadlineAtUnixMs ∧
      ∀ previous, (starts pre).getLast? = some previous →
        start.deadlineAtUnixMs ≤ previous.fields.deadlineAtUnixMs
  terminal : ∀ pre record post resolution, records = pre ++ record :: post →
    record.body = .attemptResolution resolution → resolution.resolutionKind = .ownerTerminalReference → post = []
  /-- A resolution follows a readback of its attempt and carries the digests of all its settlements. -/
  resolution : ∀ pre record post resolution, records = pre ++ record :: post →
    record.body = .attemptResolution resolution →
      readbacksOf resolution.attemptNonceDigest pre ≠ [] ∧
      resolution.providerSettlementRecordDigests = sortBy Subtype.val
        ((settlementsOf resolution.attemptNonceDigest records).map Sealed.recordDigest)
  /-- A first attempt claims no retry; a successor binds the retry admission of the attempt before it. -/
  successor : ∀ pre record post start, records = pre ++ record :: post → record.body = .attemptStart start →
    (starts pre = [] → start.retryAdmissionReferenceDigest = none) ∧
      ∀ previous, (starts pre).getLast? = some previous → ∃ resolved, (resolutions pre).getLast? = some resolved ∧
        resolved.fields.attemptNonceDigest = previous.fields.attemptNonceDigest ∧
        resolved.fields.resolutionKind = .retryAdmissionReference ∧
        start.retryAdmissionReferenceDigest = some resolved.fields.resolutionReferenceDigest

variable {intent : Sealed IntentFields} {records pre post : List DurableRecord} {st : Observing}
  {record : DurableRecord}

theorem Accepts.chain (h : Accepts (pre ++ record :: post) intent st) :
    record.base.sequence = pre.length ∧
      record.base.previousRecordDigest = pre.getLast?.map DurableRecord.recordDigest := by
  cases pre with
  | nil =>
      rw [show ([] : List DurableRecord) ++ record :: post = [record] ++ post from rfl] at h
      obtain ⟨st₁, h₁, _⟩ := h.front (by simp)
      have hrun := h₁.run
      simp only [observeFrom] at hrun
      obtain ⟨st₂, hst, _⟩ := bind_eq_ok.mp hrun
      obtain ⟨hchain, _⟩ := observeRecord_zero.mp hst
      exact ⟨hchain.sequence, hchain.previous⟩
  | cons first pre =>
      obtain ⟨st₀, _, _, hobs, hchain, _⟩ := h.split (by simp)
      exact ⟨hchain.sequence, by rw [hchain.previous, hobs.previous]⟩

theorem Accepts.isIntent_iff (h : Accepts (pre ++ record :: post) intent st) : record.isIntent ↔ pre = [] := by
  cases pre with
  | nil =>
      obtain ⟨first, rest, fields, heq, hbody, _⟩ := h.head
      obtain ⟨rfl, _⟩ := List.cons.inj heq
      simp [DurableRecord.isIntent, hbody]
  | cons first pre =>
      obtain ⟨_, _, _, _, _, hbody, _⟩ := h.split (by simp)
      constructor
      · intro hi
        unfold DurableRecord.isIntent at hi
        unfold observeBody at hbody
        split at hi
        · rename_i fields hf
          rw [hf] at hbody
          cases hbody
        · cases hi
      · intro hnil; cases hnil

theorem Accepts.start_allowed {start : AttemptStartFields} (h : Accepts (pre ++ record :: post) intent st)
    (hbody : record.body = .attemptStart start) :
    ∃ st₀, Observed intent pre st₀ ∧ StartAllowed intent st₀ start := by
  have hne : pre ≠ [] := by
    intro hnil
    have := h.isIntent_iff.mpr hnil
    simp [DurableRecord.isIntent, hbody] at this
  obtain ⟨st₀, st₁, _, hobs, _, hrec, _⟩ := h.split hne
  unfold observeBody at hrec
  rw [hbody] at hrec
  exact ⟨st₀, hobs, (observeAttemptStart_ok.mp hrec).1⟩

theorem Accepts.resolution_allowed {resolution : AttemptResolutionFields}
    (h : Accepts (pre ++ record :: post) intent st) (hbody : record.body = .attemptResolution resolution) :
    pre ≠ [] ∧ ∃ st₀ st₁ a, Observed intent pre st₀ ∧ st₀.active = some a ∧ ResolutionAllowed a resolution ∧
      Accepts (pre ++ [record]) intent st₁ ∧ st₁.active = none ∧ st₁.latestResolution = some (record.as resolution) := by
  have hne : pre ≠ [] := by
    intro hnil
    have := h.isIntent_iff.mpr hnil
    simp [DurableRecord.isIntent, hbody] at this
  obtain ⟨st₀, st₁, _, hobs, _, hrec, h₁⟩ := h.split hne
  unfold observeBody at hrec
  rw [hbody] at hrec
  obtain ⟨a, ha, hallowed, rfl⟩ := observeAttemptResolution_ok.mp hrec
  exact ⟨hne, st₀, _, a, hobs, ha, hallowed, h₁, rfl, rfl⟩

/-- Behind an owner-terminal resolution no record is accepted. -/
theorem observeBody_settled {st st' : Observing} (hactive : st.active = none)
    (hsettled : ∃ resolution, st.latestResolution = some resolution ∧
      resolution.fields.resolutionKind = .ownerTerminalReference) : observeBody intent st record ≠ .ok st' := by
  intro h
  obtain ⟨resolution, hlatest, hkind⟩ := hsettled
  unfold observeBody at h
  split at h
  · cases h
  · have := ((observeAttemptStart_ok.mp h).1.successor resolution hlatest).1
    rw [hkind] at this
    cases this
  · obtain ⟨a, ha, _⟩ := observeProviderSettlement_ok.mp h
    rw [hactive] at ha; cases ha
  · obtain ⟨a, ha, _⟩ := observeDomainReadback_ok.mp h
    rw [hactive] at ha; cases ha
  · obtain ⟨a, ha, _⟩ := observeLostHandle_ok.mp h
    rw [hactive] at ha; cases ha
  · obtain ⟨a, ha, _⟩ := observeAttemptResolution_ok.mp h
    rw [hactive] at ha; cases ha

theorem Accepts.terminal {resolution : AttemptResolutionFields} (h : Accepts (pre ++ record :: post) intent st)
    (hbody : record.body = .attemptResolution resolution)
    (hkind : resolution.resolutionKind = .ownerTerminalReference) : post = [] := by
  obtain ⟨_, _, st₁, _, _, _, _, h₁, hactive, hlatest⟩ := h.resolution_allowed hbody
  cases post with
  | nil => rfl
  | cons next post =>
      exfalso
      rw [show pre ++ record :: next :: post = (pre ++ [record]) ++ next :: post by simp] at h
      obtain ⟨st₂, _, h₂, _, _, hnext, _⟩ := h.split (by simp)
      obtain rfl : st₁ = st₂ := Except.ok.inj (h₁.run.symm.trans h₂.run)
      exact observeBody_settled hactive ⟨_, hlatest, hkind⟩ hnext

theorem Accepts.resolution_carries {resolution : AttemptResolutionFields}
    (h : Accepts (pre ++ record :: post) intent st) (hbody : record.body = .attemptResolution resolution) :
    readbacksOf resolution.attemptNonceDigest pre ≠ [] ∧
      resolution.providerSettlementRecordDigests = sortBy Subtype.val
        ((settlementsOf resolution.attemptNonceDigest (pre ++ record :: post)).map Sealed.recordDigest) := by
  obtain ⟨_, st₀, _, a, hobs, ha, hallowed, _, _, _⟩ := h.resolution_allowed hbody
  obtain ⟨_, hrecords⟩ := hobs.active a ha
  obtain ⟨b, hb, _⟩ := hallowed.readback
  constructor
  · rw [hallowed.nonce, hrecords.readback, hb]
    simp
  · rw [show pre ++ record :: post = (pre ++ [record]) ++ post by simp] at h ⊢
    have hmem : resolution.attemptNonceDigest ∈ resolvedNonces (pre ++ [record]) := by
      rw [resolvedNonces_concat]
      simp [DurableRecord.resolution?, hbody, DurableRecord.as]
    rw [h.settlementsOf_resolved (by simp) hmem, settlementsOf_concat, hallowed.nonce, hrecords.settlements,
      hallowed.settlements]
    simp [DurableRecord.settlement?, hbody, AttemptObservation.providerRecordDigests]

theorem Accepts.successor {start : AttemptStartFields} (h : Accepts (pre ++ record :: post) intent st)
    (hbody : record.body = .attemptStart start) :
    (starts pre = [] → start.retryAdmissionReferenceDigest = none) ∧
      ∀ previous, (starts pre).getLast? = some previous → ∃ resolved, (resolutions pre).getLast? = some resolved ∧
        resolved.fields.attemptNonceDigest = previous.fields.attemptNonceDigest ∧
        resolved.fields.resolutionKind = .retryAdmissionReference ∧
        start.retryAdmissionReferenceDigest = some resolved.fields.resolutionReferenceDigest := by
  obtain ⟨st₀, hobs, hallowed⟩ := h.start_allowed hbody
  have hattempts := hobs.attempts
  rw [hallowed.inactive, Option.map_none, Option.toList_none, List.append_nil] at hattempts
  constructor
  · intro hnone
    apply hallowed.initial
    rw [hobs.latestResolution, List.getLast?_eq_none_iff]
    have : resolvedNonces pre = [] := by rw [← hattempts, startedNonces, hnone]; rfl
    exact List.map_eq_nil_iff.mp this
  · intro previous hprevious
    have hlast := congrArg List.getLast? hattempts
    rw [startedNonces, resolvedNonces, List.getLast?_map, List.getLast?_map, hprevious] at hlast
    obtain ⟨resolved, hresolved, hnonce⟩ := Option.map_eq_some_iff.mp hlast.symm
    obtain ⟨hkind, hbinds⟩ := hallowed.successor resolved (by rw [hobs.latestResolution, hresolved])
    exact ⟨resolved, hresolved, hnonce, hkind, hbinds⟩

/-- Every accepted sequence of records is a lawful journal. -/
theorem Accepts.lawful (h : Accepts records intent st) : LawfulJournal intent records where
  first := by
    obtain ⟨first, rest, fields, rfl, hbody, rfl⟩ := h.head
    exact ⟨first, rest, rfl, hbody⟩
  oneIntent := by rintro pre record post rfl; exact h.isIntent_iff
  chain := by rintro pre record post rfl; exact h.chain
  oneActive := by
    rintro pre ⟨post, rfl⟩
    cases hpre : pre with
    | nil => simp [activeNonces, startedNonces, starts]
    | cons first rest =>
        obtain ⟨st', h', _⟩ := h.front (by simp [hpre])
        rw [← hpre, h'.observed.activeNonces]
        cases st'.active <;> simp
  nonces := h.observed.nodup
  deadlines := by
    rintro pre record post start rfl hbody
    obtain ⟨st₀, hobs, hallowed⟩ := h.start_allowed hbody
    exact ⟨hallowed.deadline, fun previous hp => hallowed.predecessor previous (by rw [hobs.previousStart, hp])⟩
  terminal := by rintro pre record post resolution rfl hbody hkind; exact h.terminal hbody hkind
  resolution := by rintro pre record post resolution rfl hbody; exact h.resolution_carries hbody
  successor := by rintro pre record post start rfl hbody; exact h.successor hbody

end SecPlatform.DurableExecution
