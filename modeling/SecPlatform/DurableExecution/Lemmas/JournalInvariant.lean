import Mathlib.Data.List.Induction
import SecPlatform.DurableExecution.Lemmas.Observation

/-!
# The invariant of the observing loop
-/

namespace SecPlatform.DurableExecution

open Contracts

variable {intent : Sealed IntentFields} {records : List DurableRecord} {st st' : Observing} {record : DurableRecord}

/-! ## One record more -/

theorem starts_concat : starts (records ++ [record]) = starts records ++ record.start?.toList := by
  cases h : record.start? <;> simp [starts, h]

theorem resolutions_concat : resolutions (records ++ [record]) = resolutions records ++ record.resolution?.toList := by
  cases h : record.resolution? <;> simp [resolutions, h]

theorem settlementsOf_concat {nonce : Digest} : settlementsOf nonce (records ++ [record]) =
    settlementsOf nonce records ++ (record.settlement?.toList.filter fun s => s.fields.attemptNonceDigest = nonce) := by
  cases h : record.settlement? <;> simp [settlementsOf, h]

theorem readbacksOf_concat {nonce : Digest} : readbacksOf nonce (records ++ [record]) =
    readbacksOf nonce records ++ (record.readback?.toList.filter fun s => s.fields.attemptNonceDigest = nonce) := by
  cases h : record.readback? <;> simp [readbacksOf, h]

theorem lostHandlesOf_concat {nonce : Digest} : lostHandlesOf nonce (records ++ [record]) =
    lostHandlesOf nonce records ++ (record.lostHandle?.toList.filter fun s => s.fields.attemptNonceDigest = nonce) := by
  cases h : record.lostHandle? <;> simp [lostHandlesOf, h]

theorem startedNonces_concat : startedNonces (records ++ [record]) =
    startedNonces records ++ (record.start?.toList.map fun s => s.fields.attemptNonceDigest) := by
  simp [startedNonces, starts_concat]

theorem resolvedNonces_concat : resolvedNonces (records ++ [record]) =
    resolvedNonces records ++ (record.resolution?.toList.map fun s => s.fields.attemptNonceDigest) := by
  simp [resolvedNonces, resolutions_concat]

/-! ## Attempts -/

/-- What the journal says about one attempt. -/
structure AttemptRecords (nonce : Digest) (records : List DurableRecord)
    (settlements : List (Sealed ProviderSettlementFields)) (readback : Option (Sealed DomainReadbackFields))
    (lostHandle : Option (Sealed LostHandleFields)) : Prop where
  requirements : (settlements.map fun s => s.fields.requirementId).Nodup
  settlements : settlementsOf nonce records = settlements
  readback : readbacksOf nonce records = readback.toList
  lostHandle : lostHandlesOf nonce records = lostHandle.toList

/-- The meaning of the loop's variables behind the records read so far. -/
structure Observed (intent : Sealed IntentFields) (records : List DurableRecord) (st : Observing) : Prop where
  previous : st.previous = records.getLast?
  previousStart : st.previousAttemptStart = (starts records).getLast?
  latestResolution : st.latestResolution = (resolutions records).getLast?
  nonces : ∀ nonce, nonce ∈ st.attemptNonces ↔ nonce ∈ startedNonces records
  nodup : (startedNonces records).Nodup
  /-- The attempts are resolved in the order of their starts, all but the active one. -/
  attempts : startedNonces records = resolvedNonces records ++ (st.active.map AttemptObservation.nonce).toList
  active : ∀ a, st.active = some a → (starts records).getLast? = some a.start ∧
    AttemptRecords a.nonce records a.providerSettlements a.domainReadback a.lostHandle
  /-- Every attempt has a consistent set of records; an attempt that was not started has none. -/
  attempt : ∀ nonce, ∃ settlements readback lostHandle, AttemptRecords nonce records settlements readback lostHandle ∧
    (nonce ∉ startedNonces records → settlements = [] ∧ readback = none ∧ lostHandle = none)

/-- A record that belongs to no attempt or to another one changes nothing about an attempt. -/
theorem AttemptRecords.frame {nonce : Digest} {settlements readback lostHandle}
    (h : AttemptRecords nonce records settlements readback lostHandle)
    (hs : ∀ s, record.settlement? = some s → s.fields.attemptNonceDigest ≠ nonce)
    (hr : ∀ s, record.readback? = some s → s.fields.attemptNonceDigest ≠ nonce)
    (hl : ∀ s, record.lostHandle? = some s → s.fields.attemptNonceDigest ≠ nonce) :
    AttemptRecords nonce (records ++ [record]) settlements readback lostHandle := by
  refine ⟨h.requirements, ?_, ?_, ?_⟩
  · rw [settlementsOf_concat, h.settlements]
    cases hrec : record.settlement? with
    | none => simp
    | some s => simp [hs s hrec]
  · rw [readbacksOf_concat, h.readback]
    cases hrec : record.readback? with
    | none => simp
    | some s => simp [hr s hrec]
  · rw [lostHandlesOf_concat, h.lostHandle]
    cases hrec : record.lostHandle? with
    | none => simp
    | some s => simp [hl s hrec]

theorem Observed.nonce_mem {a : AttemptObservation} (h : Observed intent records st) (ha : st.active = some a) :
    a.nonce ∈ startedNonces records := by
  rw [h.attempts, ha]
  simp

theorem Observed.nonce_notMem_resolved {a : AttemptObservation} (h : Observed intent records st)
    (ha : st.active = some a) : a.nonce ∉ resolvedNonces records := by
  have hn := h.nodup
  rw [h.attempts, ha, List.nodup_append] at hn
  intro hm
  exact hn.2.2 _ hm a.nonce (by simp) rfl

/-- The records of an attempt while another record of the active attempt is added. -/
theorem Observed.attempt_update {a : AttemptObservation} (h : Observed intent records st) (a' : AttemptObservation)
    (ha : st.active = some a)
    (hactive : AttemptRecords a.nonce (records ++ [record]) a'.providerSettlements a'.domainReadback a'.lostHandle)
    (hs : ∀ s, record.settlement? = some s → s.fields.attemptNonceDigest = a.nonce)
    (hr : ∀ s, record.readback? = some s → s.fields.attemptNonceDigest = a.nonce)
    (hl : ∀ s, record.lostHandle? = some s → s.fields.attemptNonceDigest = a.nonce)
    (hstart : record.start? = none) (nonce : Digest) :
    ∃ settlements readback lostHandle,
      AttemptRecords nonce (records ++ [record]) settlements readback lostHandle ∧
      (nonce ∉ startedNonces (records ++ [record]) → settlements = [] ∧ readback = none ∧ lostHandle = none) := by
  by_cases he : nonce = a.nonce
  · subst he
    refine ⟨_, _, _, hactive, fun hn => absurd ?_ hn⟩
    rw [startedNonces_concat]
    exact List.mem_append_left _ (h.nonce_mem ha)
  · obtain ⟨settlements, readback, lostHandle, hrec, hnone⟩ := h.attempt nonce
    refine ⟨settlements, readback, lostHandle, hrec.frame ?_ ?_ ?_, ?_⟩
    · exact fun s hsome e => he (e.symm.trans (hs s hsome))
    · exact fun s hsome e => he (e.symm.trans (hr s hsome))
    · exact fun s hsome e => he (e.symm.trans (hl s hsome))
    · rw [startedNonces_concat, hstart]
      simpa using hnone

/-! ## One turn of the loop -/

theorem Observed.start (h : Observed intent records st) {start : AttemptStartFields}
    (hbody : record.body = .attemptStart start) (hok : observeAttemptStart intent st record start = .ok st') :
    Observed intent (records ++ [record]) st' := by
  obtain ⟨hallowed, rfl⟩ := observeAttemptStart_ok.mp hok
  have hstart : record.start? = some (record.as start) := by simp [DurableRecord.start?, hbody]
  have hres : record.resolution? = none := by simp [DurableRecord.resolution?, hbody]
  have hset : record.settlement? = none := by simp [DurableRecord.settlement?, hbody]
  have hread : record.readback? = none := by simp [DurableRecord.readback?, hbody]
  have hlost : record.lostHandle? = none := by simp [DurableRecord.lostHandle?, hbody]
  have hfresh : start.attemptNonceDigest ∉ startedNonces records := fun hm => hallowed.nonce ((h.nonces _).mpr hm)
  have hframe {nonce settlements readback lostHandle}
      (hrec : AttemptRecords nonce records settlements readback lostHandle) :
      AttemptRecords nonce (records ++ [record]) settlements readback lostHandle :=
    hrec.frame (by simp [hset]) (by simp [hread]) (by simp [hlost])
  have hnonces : startedNonces (records ++ [record]) = startedNonces records ++ [start.attemptNonceDigest] := by
    simp [startedNonces_concat, hstart, DurableRecord.as]
  have hempty : AttemptRecords start.attemptNonceDigest records [] none none := by
    obtain ⟨settlements, readback, lostHandle, hrec, hnone⟩ := h.attempt start.attemptNonceDigest
    obtain ⟨rfl, rfl, rfl⟩ := hnone hfresh
    exact hrec
  refine ⟨by simp, by simp [starts_concat, hstart], ?_, ?_, ?_, ?_, ?_, ?_⟩
  · simp [resolutions_concat, hres, h.latestResolution]
  · intro nonce
    rw [hnonces]
    simp [h.nonces nonce, or_comm]
  · rw [hnonces, List.nodup_append]
    refine ⟨h.nodup, by simp, ?_⟩
    rintro x hx y hy rfl
    simp only [List.mem_singleton] at hy
    exact hfresh (hy ▸ hx)
  · rw [hnonces, h.attempts, hallowed.inactive, resolvedNonces_concat, hres]
    simp [AttemptObservation.nonce, DurableRecord.as]
  · rintro a ⟨⟩
    exact ⟨by simp [starts_concat, hstart], hframe hempty⟩
  · intro nonce
    obtain ⟨settlements, readback, lostHandle, hrec, hnone⟩ := h.attempt nonce
    refine ⟨settlements, readback, lostHandle, hframe hrec, fun hn => hnone fun hm => hn ?_⟩
    rw [hnonces]
    exact List.mem_append_left _ hm

theorem Observed.settlement (h : Observed intent records st) {settlement : ProviderSettlementFields}
    (hbody : record.body = .providerSettlement settlement)
    (hok : observeProviderSettlement st record settlement = .ok st') : Observed intent (records ++ [record]) st' := by
  obtain ⟨a, ha, hallowed, rfl⟩ := observeProviderSettlement_ok.mp hok
  have hstart : record.start? = none := by simp [DurableRecord.start?, hbody]
  have hres : record.resolution? = none := by simp [DurableRecord.resolution?, hbody]
  have hset : record.settlement? = some (record.as settlement) := by simp [DurableRecord.settlement?, hbody]
  have hread : record.readback? = none := by simp [DurableRecord.readback?, hbody]
  have hlost : record.lostHandle? = none := by simp [DurableRecord.lostHandle?, hbody]
  obtain ⟨hlast, hrecords⟩ := h.active a ha
  have hupdated : AttemptRecords a.nonce (records ++ [record]) (a.providerSettlements ++ [record.as settlement])
      a.domainReadback a.lostHandle := by
    refine ⟨?_, ?_, ?_, ?_⟩
    · rw [List.map_append, List.nodup_append]
      refine ⟨hrecords.requirements, by simp, ?_⟩
      rintro x hx y hy rfl
      obtain ⟨other, hother, rfl⟩ := List.mem_map.mp hx
      simp only [List.map_cons, List.map_nil, List.mem_singleton] at hy
      exact hallowed.unique other hother hy
    · rw [settlementsOf_concat, hrecords.settlements, hset]
      simp [DurableRecord.as, hallowed.nonce]
    · rw [readbacksOf_concat, hrecords.readback, hread]
      simp
    · rw [lostHandlesOf_concat, hrecords.lostHandle, hlost]
      simp
  refine ⟨by simp, by simp [starts_concat, hstart, h.previousStart], by simp [resolutions_concat, hres, h.latestResolution],
    ?_, ?_, ?_, ?_, ?_⟩
  · intro nonce; simp [startedNonces_concat, hstart, h.nonces nonce]
  · simpa [startedNonces_concat, hstart] using h.nodup
  · simp [startedNonces_concat, resolvedNonces_concat, hstart, hres, h.attempts, ha, AttemptObservation.nonce]
  · rintro _ ⟨⟩
    exact ⟨by simpa [starts_concat, hstart] using hlast, hupdated⟩
  · exact h.attempt_update { a with providerSettlements := a.providerSettlements ++ [record.as settlement] } ha
      hupdated (by rw [hset]; rintro _ ⟨⟩; exact hallowed.nonce) (by simp [hread]) (by simp [hlost]) hstart

theorem Observed.readback (h : Observed intent records st) {readback : DomainReadbackFields}
    (hbody : record.body = .domainReadback readback)
    (hok : observeDomainReadback st record readback = .ok st') : Observed intent (records ++ [record]) st' := by
  obtain ⟨a, ha, hnonce, hunread, rfl⟩ := observeDomainReadback_ok.mp hok
  have hstart : record.start? = none := by simp [DurableRecord.start?, hbody]
  have hres : record.resolution? = none := by simp [DurableRecord.resolution?, hbody]
  have hset : record.settlement? = none := by simp [DurableRecord.settlement?, hbody]
  have hread : record.readback? = some (record.as readback) := by simp [DurableRecord.readback?, hbody]
  have hlost : record.lostHandle? = none := by simp [DurableRecord.lostHandle?, hbody]
  obtain ⟨hlast, hrecords⟩ := h.active a ha
  have hupdated : AttemptRecords a.nonce (records ++ [record]) a.providerSettlements (some (record.as readback))
      a.lostHandle := by
    refine ⟨hrecords.requirements, ?_, ?_, ?_⟩
    · rw [settlementsOf_concat, hrecords.settlements, hset]
      simp
    · rw [readbacksOf_concat, hrecords.readback, hread, hunread]
      simp [DurableRecord.as, hnonce]
    · rw [lostHandlesOf_concat, hrecords.lostHandle, hlost]
      simp
  refine ⟨by simp, by simp [starts_concat, hstart, h.previousStart], by simp [resolutions_concat, hres, h.latestResolution],
    ?_, ?_, ?_, ?_, ?_⟩
  · intro nonce; simp [startedNonces_concat, hstart, h.nonces nonce]
  · simpa [startedNonces_concat, hstart] using h.nodup
  · simp [startedNonces_concat, resolvedNonces_concat, hstart, hres, h.attempts, ha, AttemptObservation.nonce]
  · rintro _ ⟨⟩
    exact ⟨by simpa [starts_concat, hstart] using hlast, hupdated⟩
  · exact h.attempt_update { a with domainReadback := some (record.as readback) } ha
      hupdated (by simp [hset]) (by rw [hread]; rintro _ ⟨⟩; exact hnonce) (by simp [hlost]) hstart

theorem Observed.lostHandle (h : Observed intent records st) {lostHandle : LostHandleFields}
    (hbody : record.body = .lostHandle lostHandle)
    (hok : observeLostHandle st record lostHandle = .ok st') : Observed intent (records ++ [record]) st' := by
  obtain ⟨a, ha, hnonce, hpresent, hunread, rfl⟩ := observeLostHandle_ok.mp hok
  have hstart : record.start? = none := by simp [DurableRecord.start?, hbody]
  have hres : record.resolution? = none := by simp [DurableRecord.resolution?, hbody]
  have hset : record.settlement? = none := by simp [DurableRecord.settlement?, hbody]
  have hread : record.readback? = none := by simp [DurableRecord.readback?, hbody]
  have hlost : record.lostHandle? = some (record.as lostHandle) := by simp [DurableRecord.lostHandle?, hbody]
  obtain ⟨hlast, hrecords⟩ := h.active a ha
  have hupdated : AttemptRecords a.nonce (records ++ [record]) a.providerSettlements a.domainReadback
      (some (record.as lostHandle)) := by
    refine ⟨hrecords.requirements, ?_, ?_, ?_⟩
    · rw [settlementsOf_concat, hrecords.settlements, hset]
      simp
    · rw [readbacksOf_concat, hrecords.readback, hread]
      simp
    · rw [lostHandlesOf_concat, hrecords.lostHandle, hlost, hpresent]
      simp [DurableRecord.as, hnonce]
  refine ⟨by simp, by simp [starts_concat, hstart, h.previousStart], by simp [resolutions_concat, hres, h.latestResolution],
    ?_, ?_, ?_, ?_, ?_⟩
  · intro nonce; simp [startedNonces_concat, hstart, h.nonces nonce]
  · simpa [startedNonces_concat, hstart] using h.nodup
  · simp [startedNonces_concat, resolvedNonces_concat, hstart, hres, h.attempts, ha, AttemptObservation.nonce]
  · rintro _ ⟨⟩
    exact ⟨by simpa [starts_concat, hstart] using hlast, hupdated⟩
  · exact h.attempt_update { a with lostHandle := some (record.as lostHandle) } ha
      hupdated (by simp [hset]) (by simp [hread]) (by rw [hlost]; rintro _ ⟨⟩; exact hnonce) hstart

theorem Observed.resolution (h : Observed intent records st) {resolution : AttemptResolutionFields}
    (hbody : record.body = .attemptResolution resolution)
    (hok : observeAttemptResolution st record resolution = .ok st') : Observed intent (records ++ [record]) st' := by
  obtain ⟨a, ha, hallowed, rfl⟩ := observeAttemptResolution_ok.mp hok
  have hstart : record.start? = none := by simp [DurableRecord.start?, hbody]
  have hres : record.resolution? = some (record.as resolution) := by simp [DurableRecord.resolution?, hbody]
  have hset : record.settlement? = none := by simp [DurableRecord.settlement?, hbody]
  have hread : record.readback? = none := by simp [DurableRecord.readback?, hbody]
  have hlost : record.lostHandle? = none := by simp [DurableRecord.lostHandle?, hbody]
  refine ⟨by simp, by simp [starts_concat, hstart, h.previousStart], by simp [resolutions_concat, hres],
    ?_, ?_, ?_, by simp, ?_⟩
  · intro nonce; simp [startedNonces_concat, hstart, h.nonces nonce]
  · simpa [startedNonces_concat, hstart] using h.nodup
  · simp [startedNonces_concat, resolvedNonces_concat, hstart, hres, h.attempts, ha, DurableRecord.as, hallowed.nonce]
  · intro nonce
    obtain ⟨settlements, readback, lostHandle, hrec, hnone⟩ := h.attempt nonce
    refine ⟨settlements, readback, lostHandle, hrec.frame (by simp [hset]) (by simp [hread]) (by simp [hlost]), ?_⟩
    simpa [startedNonces_concat, hstart] using hnone

/-- Every turn of the loop keeps the invariant. -/
theorem Observed.step (h : Observed intent records st) (hok : observeBody intent st record = .ok st') :
    Observed intent (records ++ [record]) st' := by
  unfold observeBody at hok
  cases hbody : record.body with
  | intent fields => rw [hbody] at hok; cases hok
  | attemptStart start => rw [hbody] at hok; exact h.start hbody hok
  | providerSettlement settlement => rw [hbody] at hok; exact h.settlement hbody hok
  | domainReadback readback => rw [hbody] at hok; exact h.readback hbody hok
  | lostHandle lostHandle => rw [hbody] at hok; exact h.lostHandle hbody hok
  | attemptResolution resolution => rw [hbody] at hok; exact h.resolution hbody hok

/-- Behind the intent nothing has happened. -/
theorem observed_intent {fields : IntentFields} (hbody : record.body = .intent fields) :
    Observed intent [record] { Observing.initial with previous := some record } := by
  have hstart : record.start? = none := by simp [DurableRecord.start?, hbody]
  have hres : record.resolution? = none := by simp [DurableRecord.resolution?, hbody]
  have hset : record.settlement? = none := by simp [DurableRecord.settlement?, hbody]
  have hread : record.readback? = none := by simp [DurableRecord.readback?, hbody]
  have hlost : record.lostHandle? = none := by simp [DurableRecord.lostHandle?, hbody]
  have hnonces : startedNonces [record] = [] := by simp [startedNonces, starts, hstart]
  refine ⟨rfl, by simp [starts, hstart, Observing.initial], by simp [resolutions, hres, Observing.initial], ?_, ?_, ?_,
    by simp [Observing.initial], ?_⟩
  · simp [hnonces, Observing.initial]
  · simp [hnonces]
  · simp [hnonces, resolvedNonces, resolutions, hres, Observing.initial]
  · intro nonce
    refine ⟨[], none, none, ⟨by simp, ?_, ?_, ?_⟩, by simp⟩
    · simp [settlementsOf, hset]
    · simp [readbacksOf, hread]
    · simp [lostHandlesOf, hlost]

/-! ## Accepted journals -/

/-- The loop accepts the records and ends with the given variables. -/
structure Accepts (records : List DurableRecord) (intent : Sealed IntentFields) (st : Observing) : Prop where
  head : ∃ first rest fields, records = first :: rest ∧ first.body = .intent fields ∧ intent = first.as fields
  run : observeFrom intent 0 .initial records = .ok st

/-- What the end of the loop says about the journal. -/
def Observing.observation [Sha256] (st : Observing) (intent : Sealed IntentFields) (records : List DurableRecord) :
    JournalObservation where
  intent := intent
  records := records
  activeAttempt := st.active
  latestResolution := st.latestResolution
  state := st.state
  journalDigest := Sha256.rawSha256 (canonicalEncoding
    (.arr (records.map fun record => digestValue record.recordDigest)))

theorem observeDurableExecutionJournal_ok [Sha256] {obs : JournalObservation} :
    observeDurableExecutionJournal records = .ok obs ↔
      ∃ intent st, Accepts records intent st ∧ obs = st.observation intent records := by
  unfold observeDurableExecutionJournal
  constructor
  · intro h
    split at h
    · cases h
    · rename_i first rest
      split at h
      · rename_i fields hbody
        obtain ⟨st, hst, h⟩ := bind_eq_ok.mp h
        exact ⟨_, st, ⟨⟨first, rest, fields, rfl, hbody, rfl⟩, hst⟩, (Except.ok.inj h).symm⟩
      · cases h
  · rintro ⟨intent, st, ⟨⟨first, rest, fields, rfl, hbody, rfl⟩, hst⟩, rfl⟩
    simp only [hbody]
    rw [hst]
    rfl

theorem Accepts.observes [Sha256] (h : Accepts records intent st) :
    observeDurableExecutionJournal records = .ok (st.observation intent records) :=
  observeDurableExecutionJournal_ok.mpr ⟨intent, st, h, rfl⟩

theorem Accepts.ne_nil (h : Accepts records intent st) : records ≠ [] := by
  obtain ⟨_, _, _, rfl, _⟩ := h.head
  simp

/-- Every prefix with a record is accepted, and the loop goes on from there. -/
theorem Accepts.front {xs ys : List DurableRecord} (h : Accepts (xs ++ ys) intent st) (hne : xs ≠ []) :
    ∃ st', Accepts xs intent st' ∧ observeFrom intent xs.length st' ys = .ok st := by
  obtain ⟨⟨first, rest, fields, heq, hbody, hintent⟩, hrun⟩ := h
  rw [observeFrom_append] at hrun
  obtain ⟨st', hxs, hys⟩ := bind_eq_ok.mp hrun
  rw [Nat.zero_add] at hys
  cases xs with
  | nil => exact absurd rfl hne
  | cons x xs =>
      rw [List.cons_append, List.cons.injEq] at heq
      exact ⟨st', ⟨⟨first, xs, fields, by rw [heq.1], hbody, hintent⟩, hxs⟩, hys⟩

/-- An accepted journal is accepted with one record more when the loop accepts that record. -/
theorem Accepts.concat (h : Accepts records intent st) :
    Accepts (records ++ [record]) intent st' ↔ observeRecord intent records.length st record = .ok st' := by
  have hrun : observeFrom intent 0 .initial (records ++ [record]) =
      observeRecord intent records.length st record := by
    rw [observeFrom_append, h.run, ok_bind, Nat.zero_add]
    simp only [observeFrom]
    cases observeRecord intent records.length st record <;> rfl
  constructor
  · intro h'
    rw [← hrun, h'.run]
  · intro h'
    obtain ⟨first, rest, fields, rfl, hbody, hintent⟩ := h.head
    exact ⟨⟨first, rest ++ [record], fields, rfl, hbody, hintent⟩, by rw [hrun, h']⟩

/-- The variables of the loop mean what they should behind every accepted journal. -/
theorem Accepts.observed (h : Accepts records intent st) : Observed intent records st := by
  induction records using List.reverseRecOn generalizing st with
  | nil => exact absurd rfl h.ne_nil
  | append_singleton xs record ih =>
      cases hxs : xs with
      | nil =>
          subst hxs
          obtain ⟨⟨first, rest, fields, heq, hbody, hintent⟩, hrun⟩ := h
          simp only [List.nil_append, List.cons.injEq] at heq
          obtain ⟨rfl, rfl⟩ := heq
          simp only [List.nil_append, observeFrom] at hrun
          obtain ⟨st', hst', hrun⟩ := bind_eq_ok.mp hrun
          cases hrun
          obtain ⟨_, rfl⟩ := observeRecord_zero.mp hst'
          exact observed_intent hbody
      | cons x xs' =>
          have hne : xs ≠ [] := by simp [hxs]
          rw [← hxs]
          obtain ⟨st', hst', _⟩ := h.front hne
          have hrecord := (hst'.concat).mp h
          exact (ih hst').step ((observeRecord_ok (by simpa using hne)).mp hrecord).2

/-- A record of an accepted journal was accepted behind the records before it. -/
theorem Accepts.split {pre post : List DurableRecord} (h : Accepts (pre ++ record :: post) intent st) (hne : pre ≠ []) :
    ∃ st₀ st₁, Accepts pre intent st₀ ∧ Observed intent pre st₀ ∧ Chained intent pre.length st₀ record ∧
      observeBody intent st₀ record = .ok st₁ ∧ Accepts (pre ++ [record]) intent st₁ := by
  obtain ⟨st₀, h₀, _⟩ := h.front hne
  rw [show pre ++ record :: post = (pre ++ [record]) ++ post by simp] at h
  obtain ⟨st₁, h₁, _⟩ := h.front (by simp)
  obtain ⟨hchain, hbody⟩ := (observeRecord_ok (by simpa using hne)).mp (h₀.concat.mp h₁)
  exact ⟨st₀, st₁, h₀, h₀.observed, hchain, hbody, h₁⟩

/-- At most one attempt is started and not resolved. -/
theorem Observed.activeNonces (h : Observed intent records st) :
    activeNonces records = (st.active.map AttemptObservation.nonce).toList := by
  unfold DurableExecution.activeNonces
  rw [h.attempts, List.filter_append, List.filter_eq_nil_iff.mpr (by simp), List.nil_append]
  cases ha : st.active with
  | none => rfl
  | some a => simpa using h.nonce_notMem_resolved ha

/-- No settlement of an attempt follows its resolution. -/
theorem Accepts.settlementsOf_resolved {nonce : Digest} {xs ys : List DurableRecord}
    (h : Accepts (xs ++ ys) intent st) (hxs : xs ≠ []) (hn : nonce ∈ resolvedNonces xs) :
    settlementsOf nonce (xs ++ ys) = settlementsOf nonce xs := by
  induction ys using List.reverseRecOn generalizing st with
  | nil => rw [List.append_nil]
  | append_singleton ys r ih =>
      rw [← List.append_assoc] at h ⊢
      obtain ⟨st₀, st₁, h₀, hobs, _, hbody, _⟩ := h.split (by simp [hxs])
      rw [settlementsOf_concat, ih h₀]
      cases hr : r.settlement? with
      | none => simp
      | some s =>
          have hne : s.fields.attemptNonceDigest ≠ nonce := by
            rintro rfl
            unfold DurableRecord.settlement? at hr
            split at hr
            · rename_i fields hfields
              cases hr
              unfold observeBody at hbody
              rw [hfields] at hbody
              obtain ⟨a, ha, hallowed, _⟩ := observeProviderSettlement_ok.mp hbody
              refine hobs.nonce_notMem_resolved ha ?_
              rw [← hallowed.nonce]
              simp only [resolvedNonces, resolutions, List.filterMap_append, List.map_append, List.mem_append]
              exact .inl hn
            · cases hr
          simp [hne]

end SecPlatform.DurableExecution
