import SecPlatform.DurableExecution.Lemmas.Asks
import SecPlatform.DurableExecution.Lemmas.RecordSize

/-!
# Journals as the store writes them

A stored journal belongs to the operation of its file, keeps within the limits of its intent with all that its
active attempt may still need, and stays so under every append that the store makes.
-/

namespace SecPlatform.DurableExecution

open Contracts

variable {key : Digest} {source : Text} {limits : StoreLimits} {records : List DurableRecord}
  {obs current next : JournalObservation} {record : DurableRecord}

/-! ## Limits -/

theorem normalizeLimit_ok {name : Text} {minimum value ceiling : Nat} :
    normalizeLimit name minimum value ceiling = .ok () ↔ minimum ≤ value ∧ value ≤ ceiling := by
  unfold normalizeLimit
  constructor
  · intro h
    split at h
    · cases h
    · omega
  · intro h
    rw [if_neg (by omega)]

/-- The limits of a store lie within their ceilings. -/
theorem WriterLimits.bounds (limits : WriterLimits) :
    (1 ≤ limits.val.maximumRecords ∧ limits.val.maximumRecords ≤ 4096) ∧
      (1 ≤ limits.val.maximumStateBytes ∧ limits.val.maximumStateBytes ≤ 8 * 1024 * 1024) ∧
      (1 ≤ limits.val.maximumAttempts ∧ limits.val.maximumAttempts ≤ 128) ∧
      limits.val.maximumProviderSettlementsPerAttempt ≤ 32 := by
  have h := limits.property
  unfold normalizeLimits at h
  rw [if_neg (by decide)] at h
  obtain ⟨_, h1, h⟩ := bind_eq_ok.mp h
  obtain ⟨_, h2, h⟩ := bind_eq_ok.mp h
  obtain ⟨_, h3, h⟩ := bind_eq_ok.mp h
  obtain ⟨_, h4, _⟩ := bind_eq_ok.mp h
  exact ⟨normalizeLimit_ok.mp h1, normalizeLimit_ok.mp h2, normalizeLimit_ok.mp h3, (normalizeLimit_ok.mp h4).2⟩

theorem limitsMatchIntent_iff : limitsMatchIntent obs limits ↔
    obs.intent.fields.maximumRecords = limits.maximumRecords ∧
      obs.intent.fields.maximumStateBytes = limits.maximumStateBytes ∧
      obs.intent.fields.maximumAttempts = limits.maximumAttempts ∧
      obs.intent.fields.maximumProviderSettlementsPerAttempt = limits.maximumProviderSettlementsPerAttempt := by
  simp only [limitsMatchIntent, Bool.and_eq_true, decide_eq_true_eq, and_assoc]

/-- A journal has one set of limits. -/
theorem limitsMatchIntent_unique {limits' : StoreLimits} (h : limitsMatchIntent obs limits)
    (h' : limitsMatchIntent obs limits') : limits = limits' := by
  obtain ⟨h1, h2, h3, h4⟩ := limitsMatchIntent_iff.mp h
  obtain ⟨h1', h2', h3', h4'⟩ := limitsMatchIntent_iff.mp h'
  cases limits; cases limits'
  simp_all

theorem limitsMatchIntent_congr (h : obs.intent = current.intent) :
    limitsMatchIntent obs limits = limitsMatchIntent current limits := by
  simp only [limitsMatchIntent, h]

/-- The records that an attempt can still need. -/
def AttemptObservation.reserve (active : AttemptObservation) (limits : StoreLimits) : Nat :=
  (if active.lostHandle = none then
    limits.maximumProviderSettlementsPerAttempt - active.providerSettlements.length else 0) +
    (if active.lostHandle = none then 1 else 0) + (if active.domainReadback = none then 1 else 0) + 1

/-- The records that a journal can still need up to the resolution of its active attempt. -/
def JournalObservation.reserve (observation : JournalObservation) (limits : StoreLimits) : Nat :=
  match observation.activeAttempt with
  | none => 0
  | some active => active.reserve limits

/-- The capacity of a journal covers what it holds and what it reserves. -/
structure Fits (observation : JournalObservation) (limits : StoreLimits) (bytes : Nat) : Prop where
  records : observation.records.length + observation.reserve limits ≤ limits.maximumRecords
  bytes : bytes + observation.reserve limits * (durableExecutionMaximumRecordBytes + 1) ≤ limits.maximumStateBytes
  attempts : attemptCount observation ≤ limits.maximumAttempts

theorem reservedClosureRecords_ok {n : Nat} : reservedClosureRecords obs limits = .ok n ↔ n = obs.reserve limits ∧
    ∀ a, obs.activeAttempt = some a → a.lostHandle = none →
      a.providerSettlements.length ≤ limits.maximumProviderSettlementsPerAttempt := by
  unfold reservedClosureRecords JournalObservation.reserve
  cases obs.activeAttempt with
  | none => simp [eq_comm]
  | some a =>
      simp only [Option.some.injEq, forall_eq']
      constructor
      · intro h
        split at h
        · cases h
        · rename_i hcount
          exact ⟨(Except.ok.inj h).symm, fun hlost => not_lt.mp fun hlt => hcount ⟨hlost, hlt⟩⟩
      · rintro ⟨rfl, hcount⟩
        rw [if_neg fun h => absurd (hcount h.1) (not_le.mpr h.2)]
        rfl

theorem checkCumulativeLimits_ok {bytes : Nat} : checkCumulativeLimits obs limits bytes true = .ok () ↔
    Fits obs limits bytes ∧ ∀ a, obs.activeAttempt = some a → a.lostHandle = none →
      a.providerSettlements.length ≤ limits.maximumProviderSettlementsPerAttempt := by
  unfold checkCumulativeLimits
  rw [if_pos rfl, bind_eq_ok]
  constructor
  · rintro ⟨n, hn, h⟩
    obtain ⟨rfl, hcount⟩ := reservedClosureRecords_ok.mp hn
    dsimp only at h
    split at h
    · cases h
    · rename_i hfits
      simp only [not_or, not_lt] at hfits
      exact ⟨⟨hfits.1, hfits.2.1, hfits.2.2⟩, hcount⟩
  · rintro ⟨⟨hrecords, hbytes, hattempts⟩, hcount⟩
    exact ⟨_, reservedClosureRecords_ok.mpr ⟨rfl, hcount⟩,
      if_neg (by simp only [not_or, not_lt]; exact ⟨hrecords, hbytes, hattempts⟩)⟩

theorem checkCumulativeLimits_unreserved {bytes : Nat} : checkCumulativeLimits obs limits bytes false = .ok () ↔
    obs.records.length ≤ limits.maximumRecords ∧ bytes ≤ limits.maximumStateBytes ∧
      attemptCount obs ≤ limits.maximumAttempts := by
  unfold checkCumulativeLimits
  rw [if_neg (by decide), ok_bind]
  dsimp only
  constructor
  · intro h
    split at h
    · cases h
    · rename_i hfits
      simpa using hfits
  · intro h
    rw [if_neg (by simpa using h)]
    rfl

section Journals

variable [Sha256]

/-! ## Texts -/

theorem isAscii_journalText (h : ∀ r ∈ records, WellSealed r) : (journalText records).IsAscii := by
  induction records with
  | nil => simp [Text.IsAscii]
  | cons r rs ih =>
      rw [journalText_cons]
      have hr := isAscii_encode (wellSealed_iff.mp (h r (by simp))).1
      exact hr.append (Json.isAscii_cons (by decide) (ih fun x hx => h x (List.mem_cons_of_mem _ hx)))

theorem utf8Length_journalText_append {more : List DurableRecord} (h : ∀ r ∈ records, WellSealed r)
    (hmore : ∀ r ∈ more, WellSealed r) : (journalText records ++ journalText more).utf8Length =
      (journalText records).utf8Length + (journalText more).utf8Length := by
  have hr := isAscii_journalText h
  have hm := isAscii_journalText hmore
  rw [Text.utf8Length_of_isAscii (hr.append hm), Text.utf8Length_of_isAscii hr, Text.utf8Length_of_isAscii hm,
    List.length_append]

/-- A record takes at most the space of its reservation. -/
theorem utf8Length_journalText_le (h : ∀ r ∈ records, WellSealed r) :
    (journalText records).utf8Length ≤ records.length * (durableExecutionMaximumRecordBytes + 1) := by
  rw [Text.utf8Length_of_isAscii (isAscii_journalText h)]
  induction records with
  | nil => exact Nat.zero_le _
  | cons r rs ih =>
      rw [List.forall_mem_cons] at h
      obtain ⟨ha, _, hsize⟩ := wellSealed_iff.mp h.1
      rw [utf8Length_encode ha] at hsize
      have hrest := ih h.2
      rw [journalText_cons, List.length_append, List.length_cons, List.length_cons, Nat.add_mul]
      omega

/-- A journal with room for all its records and for those it reserves is within its limits. -/
theorem checkCumulativeLimits_of_room {more : List DurableRecord} (h : ∀ r ∈ records, WellSealed r)
    (hmore : ∀ r ∈ more, WellSealed r)
    (hrecords : next.records.length + next.reserve limits ≤ limits.maximumRecords)
    (hbytes : (records.length + more.length + next.reserve limits) * (durableExecutionMaximumRecordBytes + 1) ≤
      limits.maximumStateBytes) (hattempts : attemptCount next ≤ limits.maximumAttempts)
    (hcount : ∀ a, next.activeAttempt = some a →
      a.providerSettlements.length ≤ limits.maximumProviderSettlementsPerAttempt) :
    checkCumulativeLimits next limits ((journalText records).utf8Length + (journalText more).utf8Length) true =
      .ok () := by
  have hr := utf8Length_journalText_le h
  have hm := utf8Length_journalText_le hmore
  rw [Nat.add_mul, Nat.add_mul] at hbytes
  exact checkCumulativeLimits_ok.mpr ⟨⟨hrecords, by omega, hattempts⟩, fun a ha _ => hcount a ha⟩

/-! ## Stored journals -/

structure Stored (key : Digest) (source : Text) (obs : JournalObservation) : Prop where
  parsed : parseDurableExecutionJournal source = .ok obs
  identity : obs.intent.base.operationKeyDigest = key
  limits : ∃ limits : WriterLimits, limitsMatchIntent obs limits.val ∧ Fits obs limits.val source.utf8Length ∧
    ∀ a, obs.activeAttempt = some a →
      a.providerSettlements.length ≤ limits.val.maximumProviderSettlementsPerAttempt

theorem Stored.text (h : Stored key source obs) : source = journalText obs.records :=
  (parseDurableExecutionJournal_ok.mp h.parsed).1

theorem Stored.sealed (h : Stored key source obs) : ∀ r ∈ obs.records, WellSealed r :=
  (parseDurableExecutionJournal_ok.mp h.parsed).2.1

theorem Stored.observed (h : Stored key source obs) : observeDurableExecutionJournal obs.records = .ok obs :=
  (parseDurableExecutionJournal_ok.mp h.parsed).2.2

/-- The journal of a file is determined by its text. -/
theorem Stored.unique (h : Stored key source obs) (h' : parseDurableExecutionJournal source = .ok current) :
    current = obs := Except.ok.inj (h'.symm.trans h.parsed)

/-- What a store checks of a journal of its own limits holds. -/
theorem Stored.check (h : Stored key source obs) (hm : limitsMatchIntent obs limits) :
    Fits obs limits source.utf8Length ∧ (∃ normal : WriterLimits, normal.val = limits) ∧
      ∀ a, obs.activeAttempt = some a → a.providerSettlements.length ≤ limits.maximumProviderSettlementsPerAttempt := by
  obtain ⟨normal, hnormal, hfits, hcount⟩ := h.limits
  obtain rfl := limitsMatchIntent_unique hm hnormal
  exact ⟨hfits, ⟨normal, rfl⟩, hcount⟩

/-- A journal and the one with more records have the same intent. -/
theorem intent_append {more : List DurableRecord} (h : observeDurableExecutionJournal records = .ok current)
    (h' : observeDurableExecutionJournal (records ++ more) = .ok next) : next.intent = current.intent := by
  obtain ⟨intent, st, ha, rfl⟩ := observeDurableExecutionJournal_ok.mp h
  obtain ⟨intent', st', ha', rfl⟩ := observeDurableExecutionJournal_ok.mp h'
  obtain ⟨first, rest, fields, rfl, hbody, rfl⟩ := ha.head
  obtain ⟨first', rest', fields', heq, hbody', rfl⟩ := ha'.head
  rw [List.cons_append, List.cons.injEq] at heq
  obtain ⟨rfl, _⟩ := heq
  rw [hbody] at hbody'
  cases hbody'
  rfl

/-- The store's append keeps a journal stored. -/
theorem Stored.append {more : List DurableRecord} (h : Stored key source current)
    (hm : limitsMatchIntent current limits) (hmore : ∀ r ∈ more, WellSealed r)
    (hnext : observeDurableExecutionJournal (current.records ++ more) = .ok next)
    (hfits : Fits next limits (source.utf8Length + (journalText more).utf8Length))
    (hcount : ∀ a, next.activeAttempt = some a →
      a.providerSettlements.length ≤ limits.maximumProviderSettlementsPerAttempt) :
    Stored key (source ++ journalText more) next := by
  obtain ⟨_, ⟨normal, rfl⟩, _⟩ := h.check hm
  have hintent := intent_append h.observed hnext
  have hrecords := observe_records hnext
  refine ⟨?_, by rw [hintent, h.identity], normal, ?_, ?_, hcount⟩
  · rw [parseDurableExecutionJournal_ok, hrecords, h.text, journalText_append]
    refine ⟨rfl, fun r hr => ?_, hnext⟩
    rcases List.mem_append.mp hr with hr | hr
    · exact h.sealed r hr
    · exact hmore r hr
  · rw [limitsMatchIntent_congr hintent]
    exact hm
  · rw [h.text] at hfits ⊢
    rwa [utf8Length_journalText_append h.sealed hmore]

end Journals

end SecPlatform.DurableExecution
