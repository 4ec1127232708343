import SecPlatform.DurableExecution.Lemmas.JournalLaws
import SecPlatform.DurableExecution.Lemmas.StoredJournal
import SecPlatform.DurableExecution.Store

/-!
# What one more record does to an accepted journal
-/

namespace SecPlatform.DurableExecution

open Contracts

/-- The step from a journal to the one with a further record, by the kind of the record. -/
inductive Advances (current : JournalObservation) (record : DurableRecord) (next : JournalObservation) : Prop
  | attemptStart (fields : AttemptStartFields) (body : record.body = .attemptStart fields)
      (inactive : current.activeAttempt = none)
      (active : next.activeAttempt = some ⟨record.as fields, [], none, none⟩)
  | providerSettlement (fields : ProviderSettlementFields) (a : AttemptObservation)
      (body : record.body = .providerSettlement fields) (before : current.activeAttempt = some a)
      (allowed : SettlementAllowed a fields)
      (after : next.activeAttempt =
        some { a with providerSettlements := a.providerSettlements ++ [record.as fields] })
  | domainReadback (fields : DomainReadbackFields) (a : AttemptObservation)
      (body : record.body = .domainReadback fields) (before : current.activeAttempt = some a)
      (nonce : fields.attemptNonceDigest = a.nonce) (unread : a.domainReadback = none)
      (after : next.activeAttempt = some { a with domainReadback := some (record.as fields) })
  | lostHandle (fields : LostHandleFields) (a : AttemptObservation)
      (body : record.body = .lostHandle fields) (before : current.activeAttempt = some a)
      (nonce : fields.attemptNonceDigest = a.nonce) (present : a.lostHandle = none) (unread : a.domainReadback = none)
      (after : next.activeAttempt = some { a with lostHandle := some (record.as fields) })
  | attemptResolution (fields : AttemptResolutionFields) (a : AttemptObservation)
      (body : record.body = .attemptResolution fields) (before : current.activeAttempt = some a)
      (allowed : ResolutionAllowed a fields) (inactive : next.activeAttempt = none)
      (latest : next.latestResolution = some (record.as fields))

variable [Sha256] {records : List DurableRecord} {current next : JournalObservation} {record : DurableRecord}

theorem observe_concat (h : observeDurableExecutionJournal records = .ok current)
    (h' : observeDurableExecutionJournal (records ++ [record]) = .ok next) : Advances current record next := by
  obtain ⟨intent, st, ha, rfl⟩ := observeDurableExecutionJournal_ok.mp h
  obtain ⟨intent', st', ha', rfl⟩ := observeDurableExecutionJournal_ok.mp h'
  have hintent : intent' = intent := intent_append h h'
  subst hintent
  obtain ⟨_, hbody⟩ := (observeRecord_ok (by simpa using ha.ne_nil)).mp (ha.concat.mp ha')
  unfold observeBody at hbody
  cases hrecord : record.body with
  | intent fields => rw [hrecord] at hbody; cases hbody
  | attemptStart fields =>
      rw [hrecord] at hbody
      obtain ⟨hallowed, rfl⟩ := observeAttemptStart_ok.mp hbody
      exact .attemptStart fields hrecord hallowed.inactive rfl
  | providerSettlement fields =>
      rw [hrecord] at hbody
      obtain ⟨a, hactive, hallowed, rfl⟩ := observeProviderSettlement_ok.mp hbody
      exact .providerSettlement fields a hrecord hactive hallowed rfl
  | domainReadback fields =>
      rw [hrecord] at hbody
      obtain ⟨a, hactive, hnonce, hunread, rfl⟩ := observeDomainReadback_ok.mp hbody
      exact .domainReadback fields a hrecord hactive hnonce hunread rfl
  | lostHandle fields =>
      rw [hrecord] at hbody
      obtain ⟨a, hactive, hnonce, hpresent, hunread, rfl⟩ := observeLostHandle_ok.mp hbody
      exact .lostHandle fields a hrecord hactive hnonce hpresent hunread rfl
  | attemptResolution fields =>
      rw [hrecord] at hbody
      obtain ⟨a, hactive, hallowed, rfl⟩ := observeAttemptResolution_ok.mp hbody
      exact .attemptResolution fields a hrecord hactive hallowed rfl rfl

omit [Sha256] in
/-- Only an attempt whose handle is not lost gets further settlements. -/
theorem Advances.settlements_le {n : Nat} (h : Advances current record next)
    (hcurrent : ∀ a, current.activeAttempt = some a → a.providerSettlements.length ≤ n)
    (hnext : ∀ a, next.activeAttempt = some a → a.lostHandle = none → a.providerSettlements.length ≤ n) :
    ∀ a, next.activeAttempt = some a → a.providerSettlements.length ≤ n := by
  intro a' ha'
  cases h with
  | attemptStart fields body inactive active =>
      rw [active, Option.some.injEq] at ha'
      subst ha'
      exact Nat.zero_le n
  | providerSettlement fields a body before allowed after =>
      have hlost := allowed.present
      exact hnext a' ha' (by rw [after, Option.some.injEq] at ha'; subst ha'; exact hlost)
  | domainReadback fields a body before nonce unread after =>
      rw [after, Option.some.injEq] at ha'
      subst ha'
      exact hcurrent a before
  | lostHandle fields a body before nonce present unread after =>
      rw [after, Option.some.injEq] at ha'
      subst ha'
      exact hcurrent a before
  | attemptResolution fields a body before allowed inactive latest =>
      rw [inactive] at ha'
      cases ha'

end SecPlatform.DurableExecution

/-!
## The predecessor attempt of a recovery
-/

namespace SecPlatform.DurableExecution

open Contracts

variable {records : List DurableRecord} {obs : JournalObservation}

/-- The active attempt of an accepted journal was started by one of its records. -/
theorem activeAttempt_started [Sha256] (h : observeDurableExecutionJournal records = .ok obs) {a : AttemptObservation}
    (ha : obs.activeAttempt = some a) : ∃ record ∈ records, record.body = .attemptStart a.start.fields := by
  obtain ⟨intent, st, haccepts, rfl⟩ := observeDurableExecutionJournal_ok.mp h
  obtain ⟨hlast, -⟩ := haccepts.observed.active a ha
  exact start_mem (List.mem_of_getLast? hlast)

/-- The predecessor's deadline lies within that of the intent. -/
theorem predecessor_deadline_le [Sha256] (h : observeDurableExecutionJournal records = .ok obs)
    {predecessor : Execution.RecoveredPredecessorAttemptReference}
    (hp : durableExecutionPredecessorAttemptReference obs = .ok predecessor) :
    predecessor.deadlineAtUnixMs ≤ obs.intent.fields.deadlineAtUnixMs := by
  unfold durableExecutionPredecessorAttemptReference at hp
  cases ha : obs.activeAttempt with
  | none =>
      rw [ha] at hp
      cases hp
  | some a =>
      rw [ha] at hp
      cases hp
      obtain ⟨record, hrecord, hbody⟩ := activeAttempt_started h ha
      obtain ⟨pre, post, rfl⟩ := List.append_of_mem hrecord
      obtain ⟨intent, st, haccepts, rfl⟩ := observeDurableExecutionJournal_ok.mp h
      exact (haccepts.lawful.deadlines pre record post a.start.fields rfl hbody).1

end SecPlatform.DurableExecution
